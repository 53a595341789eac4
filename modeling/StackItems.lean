import StackItems.Proofs.Congruence
import StackItems.Proofs.CopyEquality
import StackItems.Proofs.CopyRefusal
import StackItems.Proofs.Delimited
import StackItems.Proofs.History
import StackItems.Proofs.IntegerRange
import StackItems.Proofs.LimitsDocuments
import StackItems.Proofs.NormalForm
import StackItems.Proofs.Overrun
import StackItems.Proofs.ReadingCost
import StackItems.Proofs.Records
import StackItems.Proofs.ReleaseWorklist
import StackItems.Proofs.SequenceRuns
import StackItems.Proofs.Traceless
