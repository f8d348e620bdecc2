import Patchbay.CommandLine.Run
import Patchbay.Document.Unsteady
import Patchbay.Canvas.Align
import Patchbay.Canvas.Connect
import Patchbay.Canvas.Create
import Patchbay.Canvas.Delete
import Patchbay.Canvas.Move
import Patchbay.Canvas.Resize
import Patchbay.Main
import Patchbay.Proofs.Change
import Patchbay.Proofs.Operation
import Patchbay.Proofs.Gesture
import Patchbay.Proofs.Undo
import Patchbay.Proofs.Redo
import Patchbay.Proofs.Branch
import Patchbay.Proofs.Batch
import Patchbay.Proofs.Optimal
import Patchbay.Proofs.Budget
import Patchbay.Proofs.Boxes
import Patchbay.Proofs.Order
import Patchbay.Proofs.Cables
import Patchbay.Proofs.Reconcile
import Patchbay.Proofs.Sync
import Patchbay.Proofs.Replica
import Patchbay.Proofs.Moved
import Patchbay.Proofs.Identity
import Patchbay.Proofs.Intact
import Patchbay.Proofs.Torn
import Patchbay.Proofs.Stray
import Patchbay.Proofs.Waiting
import Patchbay.Proofs.Undone
import Patchbay.Proofs.Queue
import Patchbay.Proofs.Token
import Patchbay.Proofs.Saved
import Patchbay.Proofs.Routed
import Patchbay.Proofs.Recall
import Patchbay.Proofs.InStep
import Patchbay.Proofs.Regained
import Patchbay.Proofs.Stature
import Patchbay.Proofs.GivenUp
import Patchbay.Proofs.Locked
import Patchbay.Proofs.Refused
import Patchbay.Proofs.Graph
import Patchbay.Proofs.Fresh
import Patchbay.Proofs.Selected
import Patchbay.Proofs.Outlived
import Patchbay.Proofs.Uncounted
import Patchbay.Proofs.GridLine
import Patchbay.Proofs.Plumb
import Patchbay.Proofs.Square
import Patchbay.Proofs.HeldEdges
import Patchbay.Proofs.LinedUp
import Patchbay.Proofs.Limits
import Patchbay.Proofs.Alternating
import Patchbay.Proofs.Damaged
import Patchbay.Proofs.Room
import Patchbay.Proofs.Kink
import Patchbay.Proofs.Stopover
import Patchbay.Proofs.Punctual
