import Provision.Main
import Provision.Proofs.Document.Closing
import Provision.Proofs.Document.Comment
import Provision.Proofs.Document.Concatenation
import Provision.Proofs.Document.Confinement
import Provision.Proofs.Document.Content
import Provision.Proofs.Document.Fault
import Provision.Proofs.Document.Grammar
import Provision.Proofs.Document.Invisible
import Provision.Proofs.Document.Partition
import Provision.Proofs.Document.Proper
import Provision.Proofs.Document.Quotes
import Provision.Proofs.Document.Removal
import Provision.Proofs.Document.Renumber
import Provision.Proofs.Document.Spelling
import Provision.Proofs.Files.Barred
import Provision.Proofs.Files.Download
import Provision.Proofs.Invocation.Cleanup
import Provision.Proofs.Invocation.Exit
import Provision.Proofs.Run.Additions
import Provision.Proofs.Run.Buckets
import Provision.Proofs.Run.Course
import Provision.Proofs.Run.Effects
import Provision.Proofs.Run.Frame
import Provision.Proofs.Run.Index
import Provision.Proofs.Run.Interrupt
import Provision.Proofs.Run.Isolation
import Provision.Proofs.Run.Keys
import Provision.Proofs.Run.Once
import Provision.Proofs.Run.Payload
import Provision.Proofs.Run.Recordable
import Provision.Proofs.Run.Resumption
import Provision.Proofs.Run.Shadow
import Provision.Proofs.Run.Strict
import Provision.Proofs.Selection.Hosts
import Provision.Proofs.Selection.Restriction
import Provision.Proofs.Selection.Tightening
import Provision.Proofs.Text.Letters
import Provision.Rehearsal
