import JvmLinkage.Files.Path
import JvmLinkage.Settings.EnvironmentFile

/-!
# Shells

A shell completes command lines by a script that it finds in a place of its own. The script asks the
program itself for the words that can follow.
-/

namespace JvmLinkage

/-- The name of the program. -/
def programName : Text := "jlinkcheck"

/-- A shell that can be given a script. -/
inductive Shell where
  | bash | zsh | fish | powershell
  deriving DecidableEq, Repr, Inhabited

namespace Shell

/-- The shells in the order in which they are listed. -/
def all : List Shell := [bash, zsh, fish, powershell]

/-- The name of a shell. -/
def name : Shell → Text
  | bash => "bash"
  | zsh => "zsh"
  | fish => "fish"
  | powershell => "powershell"

/-- The shell with a name. -/
def ofName? (t : Text) : Option Shell := all.find? fun s => s.name = t

/-- The name of the shell in use. -/
def nameIn (env : Environment) : Text := Path.base (env.get "SHELL")

/-- The directory in which a shell looks for scripts, given the home directory. -/
def scriptDirectory (home : Path) : Shell → Path
  | bash => Path.join [home, ".local/share/bash-completion/completions"]
  | zsh => Path.join [home, ".zsh/completions"]
  | fish => Path.join [home, ".config/fish/completions"]
  | powershell => home

/-- The name of the script of a shell. -/
def scriptName : Shell → Text
  | bash => programName
  | zsh => "_" ++ programName
  | fish => programName ++ ".fish"
  | powershell => programName ++ "_completion.ps1"

/-- The path of the script of a shell. -/
def scriptPath (home : Path) (s : Shell) : Path := Path.join [s.scriptDirectory home, s.scriptName]

/-- The command that makes a running shell read its script. -/
def activation (home : Path) (s : Shell) : Text :=
  match s with
  | bash => "source " ++ s.scriptPath home
  | zsh => "fpath=(" ++ s.scriptDirectory home ++ " $fpath) && autoload -U compinit && compinit"
  | fish => "complete --do-complete=" ++ programName
  | powershell => ". " ++ s.scriptPath home

/-- The script of a shell. -/
def script : Shell → Text
  | bash =>
    "_jlinkcheck() \x7b\n"
    ++ "  local IFS=$'\\n'\n"
    ++ "  COMPREPLY=($(jlinkcheck __completeNoDesc \"$\x7bCOMP_WORDS[@]:1:$COMP_CWORD\x7d\" 2>/dev/null"
    ++ " | sed '$d'))\n"
    ++ "\x7d\n"
    ++ "complete -o nospace -F _jlinkcheck jlinkcheck\n"
  | zsh =>
    "#compdef jlinkcheck\n"
    ++ "_jlinkcheck() \x7b\n"
    ++ "  local -a found\n"
    ++ "  found=(\"$\x7b(@f)$(jlinkcheck __completeNoDesc \"$\x7b(@)words[2,CURRENT]\x7d\" 2>/dev/null"
    ++ " | sed '$d')\x7d\")\n"
    ++ "  compadd -a found\n"
    ++ "\x7d\n"
    ++ "compdef _jlinkcheck jlinkcheck\n"
  | fish =>
    "function __jlinkcheck_complete\n"
    ++ "  jlinkcheck __complete (commandline -opc)[2..-1] (commandline -ct) 2>/dev/null"
    ++ " | sed '$d'\n"
    ++ "end\n"
    ++ "complete -c jlinkcheck -f -a '(__jlinkcheck_complete)'\n"
  | powershell =>
    "Register-ArgumentCompleter -Native -CommandName jlinkcheck -ScriptBlock \x7b\n"
    ++ "  param($word, $line, $position)\n"
    ++ "  $words = @($line.CommandElements | Select-Object -Skip 1 | ForEach-Object \x7b \"$_\" \x7d)\n"
    ++ "  if ($word -eq '') \x7b $words += '' \x7d\n"
    ++ "  jlinkcheck __completeNoDesc @words 2>$null | Select-Object -SkipLast 1\n"
    ++ "\x7d\n"

end Shell

end JvmLinkage
