import NodeScript.Main
import NodeScript.Proofs.Building
import NodeScript.Proofs.CacheTransparency
import NodeScript.Proofs.Containment
import NodeScript.Proofs.LoopLifetime
import NodeScript.Proofs.LoopLimit
import NodeScript.Proofs.LoopRange
import NodeScript.Proofs.Report
import NodeScript.Proofs.Session
import NodeScript.Proofs.RoundTrip
import NodeScript.Proofs.Legibility
import NodeScript.Proofs.Lockstep
import NodeScript.Proofs.Correspondence
import NodeScript.Proofs.Renaming
import NodeScript.Proofs.Extension
import NodeScript.Proofs.Unwinding
import NodeScript.Proofs.CycleDetection
import NodeScript.Proofs.SingleComputation
import NodeScript.Proofs.Decoding
import NodeScript.Proofs.Limits
import NodeScript.Proofs.Loading
import NodeScript.Proofs.LevelOrder
import NodeScript.Proofs.Execution
import NodeScript.Proofs.SummingLoop
import NodeScript.Proofs.CountingUp
import NodeScript.Proofs.Fallbacks
import NodeScript.Graph.Builder.InPlace
import NodeScript.Proofs.Undoing
import NodeScript.Proofs.Duplication
import NodeScript.Proofs.Numerals
import NodeScript.Proofs.FloatOrder
import NodeScript.Proofs.Operands
import NodeScript.Proofs.Retelling
import NodeScript.Proofs.Indexing
import NodeScript.Proofs.History
import NodeScript.Proofs.Padding
import NodeScript.Proofs.Tags
import NodeScript.Proofs.Division
import NodeScript.Proofs.FloatSum
import NodeScript.Proofs.HalfUp
import NodeScript.Proofs.Iteration
