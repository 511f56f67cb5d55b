import JvmLinkage.Assembler
import JvmLinkage.Browser.View
import JvmLinkage.Command.Run
import JvmLinkage.Declared.Snapshot
import JvmLinkage.Files.Tree
import JvmLinkage.Main
import JvmLinkage.Proofs.ClassFile.RoundTrip
import JvmLinkage.Proofs.Reachability.Path
import JvmLinkage.Report.Filter
import JvmLinkage.Report.Json
import JvmLinkage.Report.Plain
import JvmLinkage.Sequence
import JvmLinkage.Proofs.Instruction.Walk
import JvmLinkage.Proofs.Descriptor.Methods
import JvmLinkage.Proofs.Descriptor.Source
import JvmLinkage.Proofs.Declared.Decoding
import JvmLinkage.Proofs.Declared.References
import JvmLinkage.Proofs.Cache.MessagePack
import JvmLinkage.Proofs.Cache.Entry
import JvmLinkage.Proofs.Cache.Transparency
import JvmLinkage.Proofs.Assembler.Labels
import JvmLinkage.Proofs.Assembler.Pool
import JvmLinkage.Proofs.Assembler.Source
import JvmLinkage.Proofs.Assembler.Body
import JvmLinkage.Proofs.Assembler.Members
import JvmLinkage.Proofs.Assembler.ClassFile
import JvmLinkage.Proofs.Assembler.References
import JvmLinkage.Proofs.Assembler.Decoding
import JvmLinkage.Proofs.ClassFile.Truncation
import JvmLinkage.Proofs.Linkage.Pruning
import JvmLinkage.Proofs.Files.Directory
import JvmLinkage.Proofs.Linkage.Extension
import JvmLinkage.Proofs.Loading.Contents
import JvmLinkage.Proofs.Loading.Layers
import JvmLinkage.Proofs.Descriptor.Eviction
import JvmLinkage.Proofs.Declared.Sharing
import JvmLinkage.Proofs.Browser.Session
import JvmLinkage.Proofs.Linkage.Shadowing
import JvmLinkage.Proofs.Linkage.Hierarchy
import JvmLinkage.Proofs.Loading.Sequence
import JvmLinkage.Proofs.Command.Check
import JvmLinkage.Proofs.Text.Characters
import JvmLinkage.Proofs.Linkage.SearchOrder
import JvmLinkage.Proofs.Report.Grouping
import JvmLinkage.Proofs.Report.Filtering
import JvmLinkage.Proofs.Report.Printing
import JvmLinkage.Proofs.Text.Wrapping
import JvmLinkage.Proofs.Declared.Rearranging
