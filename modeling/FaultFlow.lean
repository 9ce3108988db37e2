import FaultFlow.Atpg.PiNames
import FaultFlow.Atpg.StructuralReason
import FaultFlow.Db.Lifetime
import FaultFlow.Db.PerNode
import FaultFlow.Db.Represented
import FaultFlow.Fault.BatchManager
import FaultFlow.Fault.TransitionEquivalence
import FaultFlow.Project.Aggregate
import FaultFlow.Project.Assemble
import FaultFlow.Project.SocScan
import FaultFlow.Retarget.VerifySoc
import FaultFlow.RuleCheck.Feedback
import FaultFlow.Runner.CompactionCredit
import FaultFlow.Runner.Credit
import FaultFlow.Runner.PatternKeys
import FaultFlow.Runner.Stalling
import FaultFlow.Runner.Workers
import FaultFlow.Scan.BitIndex
import FaultFlow.Scan.Chain
import FaultFlow.Scan.Plan
import FaultFlow.Scan.ReturnedVectors
import FaultFlow.Scan.WbrFree
import FaultFlow.Service.Oracle
import FaultFlow.Sim.CellFunctions
