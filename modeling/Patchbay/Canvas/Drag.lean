import Patchbay.Scene.Basic
import Patchbay.Snap.Resize

/-!
What the mouse is dragging.
-/

namespace Patchbay

structure SegmentDrag where
  cable : Nat
  index : Nat
  start : Point
  /-- The route to go back to. -/
  before : Route
  /-- The plan that offsets are applied to. -/
  plan : Plan
  moved : Bool := false
  deriving DecidableEq, Repr, Inhabited

inductive Drag where
  | none
  /-- The selected boxes, held by one of them. -/
  | boxes (grabbed : Nat) (start offset : Point)
  | resize (box : Nat) (edges : Edges) (start offset : Point)
  | connection (sources : List JackRef) (cursor : Point)
  | segment (drag : SegmentDrag)
  | lasso
  deriving DecidableEq, Repr, Inhabited

namespace Drag

def isLost (scene : Scene) : Drag → Bool
  | none | lasso => false
  | boxes grabbed _ _ => (scene.box? grabbed).isNone
  | resize box _ _ _ => (scene.box? box).isNone
  | connection sources _ => sources.any fun p => (scene.box? p.box).isNone
  | segment d => (scene.cable? d.cable).isNone

/-- Whether boxes are ahead of the document while the drag goes on. -/
def movesBoxes : Drag → Bool
  | boxes _ _ _ | resize _ _ _ _ => true
  | _ => false

end Drag

end Patchbay
