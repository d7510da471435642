import NativeCall.Main
import NativeCall.Object.Equality
import NativeCall.Object.Value
import NativeCall.Posix.Account
import NativeCall.Posix.Children
import NativeCall.Posix.Directory
import NativeCall.Posix.FileLock
import NativeCall.Posix.Priority
import NativeCall.Posix.Usage
import NativeCall.Proofs.Binding.HostCalls
import NativeCall.Proofs.Binding.KeywordSlot
import NativeCall.Proofs.Binding.Loops
import NativeCall.Proofs.Binding.Opacity
import NativeCall.Proofs.Binding.Safety
import NativeCall.Proofs.Command.Diagnostics
import NativeCall.Proofs.Command.Items
import NativeCall.Proofs.Command.Report
import NativeCall.Proofs.Command.Warned
import NativeCall.Proofs.Config.Overrides
import NativeCall.Proofs.Global.Cells
import NativeCall.Proofs.Json.Documents
import NativeCall.Proofs.Json.Records
import NativeCall.Proofs.Json.WrittenForms
import NativeCall.Proofs.Number.Nearest
import NativeCall.Proofs.Number.Shortest
import NativeCall.Proofs.Object.Equality
import NativeCall.Proofs.Object.Equivalence
import NativeCall.Proofs.Object.Survival
import NativeCall.Proofs.Output.Readings
import NativeCall.Proofs.Posix.Select
import NativeCall.Proofs.Posix.WaitStatus
import NativeCall.Proofs.ScanError.Wording
import NativeCall.Proofs.Scanner.Memoization
import NativeCall.Proofs.Scanner.Retention
import NativeCall.Proofs.Scanner.Trace
import NativeCall.ScanError.Json
