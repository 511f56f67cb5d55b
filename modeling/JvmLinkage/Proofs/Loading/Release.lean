import JvmLinkage.Proofs.ClassFile.Parts
import JvmLinkage.Proofs.Loading.Layers
import JvmLinkage.Settings.Basic

/-!
# The limit that a release puts on versions

A file is passed over if its version is above that of the release. Valid settings put no upper bound
on the release, but its version is kept in sixteen bits. So the limit is the intended one up to the
last release whose version fits, and after that only where the greatest number of sixteen bits is
left. For every other release files are passed over that its version would allow.
-/

namespace JvmLinkage

/-! ## Releases that settings may ask for -/

namespace Settings

theorem guard_eq_ok_iff {ε α : Type} {c : Prop} [Decidable c] {e : ε} {next : PUnit → Except ε α}
    {a : α} : (if c then (throw e : Except ε PUnit) >>= next else next ⟨⟩) = .ok a ↔
      ¬ c ∧ next ⟨⟩ = .ok a := by
  by_cases h : c
  · simp [h, throw, throwThe, MonadExceptOf.throw, bind, Except.bind]
  · simp [h]

theorem validate_eq_ok_iff {s : Settings} {format : ReportFormat} :
    s.validate = .ok format ↔
      s.classes.isEmpty = false ∧ ReportFormat.ofName? s.output = some format ∧
        (∀ n, s.jobs = some n → 0 ≤ n) ∧ (s.release = 0 ∨ 8 ≤ s.release) := by
  have hrelease : (s.release = 0 ∨ 8 ≤ s.release) ↔
      ¬ (s.release ≠ 0 ∧ s.release < oldestRelease) := by
    rw [oldestRelease]
    omega
  rw [hrelease, validate, guard_eq_ok_iff, Bool.not_eq_true]
  refine and_congr_right fun _ => ?_
  cases ReportFormat.ofName? s.output with
  | none => simp [throw, throwThe, MonadExceptOf.throw]
  | some found =>
    cases s.jobs with
    | none =>
      dsimp only
      rw [guard_eq_ok_iff]
      simp [pure, Except.pure, and_comm]
    | some n =>
      dsimp only
      rw [guard_eq_ok_iff, guard_eq_ok_iff]
      simp [pure, Except.pure, and_left_comm, and_comm]

/-- Some valid settings ask for the release. -/
def Admits (release : Int) : Prop :=
  ∃ (s : Settings) (format : ReportFormat), s.validate = .ok format ∧ s.release = release

theorem admits_iff {release : Int} : Admits release ↔ release = 0 ∨ 8 ≤ release := by
  constructor
  · rintro ⟨s, format, hvalid, rfl⟩
    exact (validate_eq_ok_iff.mp hvalid).2.2.2
  · intro hrelease
    have hname : ReportFormat.ofName? ReportFormat.plain.name = some .plain := by decide +kernel
    refine ⟨{ classes := [Ascii.dot], release }, .plain, validate_eq_ok_iff.mpr ?_, rfl⟩
    exact ⟨rfl, hname, by simp, hrelease⟩

end Settings

namespace Loading

/-! ## Files that are passed over -/

/-- The file begins with the header of a class file of a version. -/
def HasVersion (data : Bytes) (major : UInt16) : Prop :=
  ∃ minor, u4Bytes ClassFile.magic ++ u2Bytes minor ++ u2Bytes major <+: data

/-- The file is passed over, without a failure. -/
def PassedOver (release : Int) (path : Text) (data : Bytes) : Prop :=
  classOf release path data = .ok none

variable {release earlier : Int} {path : Text} {data : Bytes} {major : UInt16}

theorem HasVersion.peekVersion (h : HasVersion data major) :
    ∃ minor, ClassFile.peekVersion data = .ok (major, minor) := by
  obtain ⟨minor, rest, rfl⟩ := h
  have hread := ClassFile.reads_version major minor rest 0
  refine ⟨minor, ?_⟩
  rw [ClassFile.peekVersion, StateT.run, Cursor.start, hread]
  rfl

/-- The version is compared with what sixteen bits leave of that of the release. -/
theorem HasVersion.isTooNew (h : HasVersion data major) (release : Int) :
    isTooNew release data =
      .ok (decide (0 < release ∧ (release + 44) % 65536 < (major.toNat : Int))) := by
  obtain ⟨minor, hpeek⟩ := h.peekVersion
  unfold Loading.isTooNew
  split
  case isTrue hlow =>
    have hlimit : majorVersionFor release < major ↔
        (release + 44) % 65536 < (major.toNat : Int) := by
      rw [UInt16.lt_iff_toNat_lt, ← toNat_majorVersionFor_eq_emod, Int.ofNat_lt]
    simp [hpeek, hlow, hlimit, bind, Except.bind, pure, Except.pure]
  case isFalse hlow => simp [hlow]

theorem HasVersion.passedOver_iff (h : HasVersion data major) (release : Int) (path : Text) :
    PassedOver release path data ↔ 0 < release ∧ (release + 44) % 65536 < (major.toNat : Int) := by
  rw [PassedOver, classOf, h.isTooNew]
  by_cases hnew : 0 < release ∧ (release + 44) % 65536 < (major.toNat : Int)
  · simp [hnew]
  · rw [decide_eq_false hnew]
    cases DeclaredClass.decode data <;> simp [hnew]

/-- A file that is not passed over has the class that it decodes to. -/
theorem HasVersion.classOf_eq_some_iff (h : HasVersion data major)
    (hkept : ¬ PassedOver release path data) {c : DeclaredClass} :
    classOf release path data = .ok (some c) ↔ DeclaredClass.decode data = .ok c := by
  rw [h.passedOver_iff] at hkept
  rw [classOf, h.isTooNew, decide_eq_false hkept]
  cases DeclaredClass.decode data <;> simp

/-! ## The intended limit -/

/-- The version of the release fits in sixteen bits, or leaves the greatest number of them. -/
def ExactLimit (release : Int) : Prop := release ≤ 65491 ∨ (release + 44) % 65536 = 65535

instance (release : Int) : Decidable (ExactLimit release) :=
  inferInstanceAs (Decidable (_ ∨ _))

/-- Exactly the files of a version above that of the release are passed over. -/
def FollowsLimit (release : Int) : Prop :=
  ∀ (path : Text) (data : Bytes) (major : UInt16), HasVersion data major →
    (PassedOver release path data ↔ 0 < release ∧ release + 44 < (major.toNat : Int))

theorem followsLimit_iff : FollowsLimit release ↔ ExactLimit release := by
  unfold ExactLimit
  constructor
  · intro h
    by_contra hexact
    -- No version is above that of such a release, and still the greatest one is passed over.
    let data := u4Bytes ClassFile.magic ++ u2Bytes 0 ++ u2Bytes 65535
    have hdata : HasVersion data 65535 := ⟨0, List.prefix_refl data⟩
    have hlimit := h [] data 65535 hdata
    rw [hdata.passedOver_iff, show ((65535 : UInt16).toNat : Int) = 65535 from rfl] at hlimit
    omega
  · intro hexact path data major hdata
    rw [hdata.passedOver_iff]
    have hmajor : major.toNat < 65536 := major.toNat_lt
    omega

/-- What an earlier release keeps is below its version, whatever is left of that in sixteen bits. -/
theorem not_passedOver_of_le (hearlier : 0 < earlier) (hle : earlier ≤ release)
    (hexact : ExactLimit release) (hdata : HasVersion data major)
    (hkept : ¬ PassedOver earlier path data) : ¬ PassedOver release path data := by
  rw [hdata.passedOver_iff] at hkept
  rw [followsLimit_iff.mpr hexact path data major hdata]
  have hwithin : (earlier + 44) % 65536 ≤ earlier + 44 := by omega
  omega

/-- A release that valid settings ask for is zero, which keeps every file, or at least eight. Files
are passed over if their version is above what sixteen bits leave of that of the release, and kept
files have the classes that they decode to. That is the intended limit exactly up to release 65491
and where the greatest version is left, and for such a release every file is kept that an earlier one
keeps. -/
theorem limit_followed_iff_exact (release : Int) :
    (Settings.Admits release ↔ release = 0 ∨ 8 ≤ release) ∧
    (∀ (path : Text) (data : Bytes) (major : UInt16), HasVersion data major →
      (PassedOver release path data ↔
        0 < release ∧ (release + 44) % 65536 < (major.toNat : Int)) ∧
      (¬ PassedOver release path data → ∀ c,
        classOf release path data = .ok (some c) ↔ DeclaredClass.decode data = .ok c)) ∧
    (FollowsLimit release ↔ ExactLimit release) ∧
    (ExactLimit release → ∀ earlier : Int, 0 < earlier → earlier ≤ release →
      ∀ (path : Text) (data : Bytes) (major : UInt16), HasVersion data major →
        ¬ PassedOver earlier path data → ¬ PassedOver release path data) := by
  refine ⟨Settings.admits_iff, ?_, followsLimit_iff, ?_⟩
  · intro path data major hdata
    exact ⟨hdata.passedOver_iff release path, fun hkept c => hdata.classOf_eq_some_iff hkept⟩
  · intro hexact earlier hearlier hle path data major hdata
    exact not_passedOver_of_le hearlier hle hexact hdata

/-- A class file of version 61 is too new for release 8 and kept by release 17, and so it is by the
last release whose version fits. -/
theorem sample_limit_followed :
    ExactLimit 65491 ∧ HasVersion (sampleData 61 "a/Sample") 61 ∧
      PassedOver 8 "a/B.class" (sampleData 61 "a/Sample") ∧
      ¬ PassedOver 17 "a/B.class" (sampleData 61 "a/Sample") ∧
      ¬ PassedOver 65491 "a/B.class" (sampleData 61 "a/Sample") := by
  have hdata : HasVersion (sampleData 61 "a/Sample") 61 := ⟨0, by decide +kernel⟩
  obtain ⟨-, hfiles, -⟩ := limit_followed_iff_exact 8
  obtain ⟨-, hlater, -⟩ := limit_followed_iff_exact 17
  obtain ⟨-, -, -, hkeeps⟩ := limit_followed_iff_exact 65491
  have hkept : ¬ PassedOver 17 "a/B.class" (sampleData 61 "a/Sample") := by
    rw [(hlater _ _ _ hdata).1]
    decide
  refine ⟨by decide, hdata, ?_, hkept, ?_⟩
  · rw [(hfiles _ _ _ hdata).1]
    decide
  · exact hkeeps (by decide) 17 (by decide) (by decide) _ _ _ hdata hkept

/-- Of the first release whose version does not fit nothing is left, so that it passes over a file
that release 8 keeps. -/
theorem limit_lost_at_65492 :
    Settings.Admits 65492 ∧ Settings.Admits 8 ∧ HasVersion (sampleData 52 "a/Sample") 52 ∧
      ¬ 65492 + 44 < ((52 : UInt16).toNat : Int) ∧
      ¬ PassedOver 8 "a/B.class" (sampleData 52 "a/Sample") ∧
      PassedOver 65492 "a/B.class" (sampleData 52 "a/Sample") := by
  have hdata : HasVersion (sampleData 52 "a/Sample") 52 := ⟨0, by decide +kernel⟩
  refine ⟨Settings.admits_iff.mpr (by decide), Settings.admits_iff.mpr (by decide), hdata,
    by decide, ?_, ?_⟩
  · rw [hdata.passedOver_iff]
    decide
  · rw [hdata.passedOver_iff]
    decide

end Loading

end JvmLinkage
