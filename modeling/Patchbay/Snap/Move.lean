import Patchbay.Snap.Basic
import Patchbay.Scene.Jack

/-!
Snapping of a box that is moved. On the horizontal axis a cable that becomes straight comes
first, then the features of other boxes, then the grid; the vertical axis knows no cables.
-/

namespace Patchbay

/-- The jack bounds of a cable of the moved box, that of the moved end from the start of the
drag. -/
structure CableEnds where
  outlet : Rect
  inlet : Rect
  /-- The inlet moves, not the outlet. -/
  inletMoves : Bool
  deriving DecidableEq, Repr, Inhabited

structure MoveRequest where
  /-- Bounds of the moved box at the start of the drag. -/
  home : Rect
  offset : Point
  others : List Rect
  cables : List CableEnds
  gridOrigin : Point := .origin
  bypass : Bool := false
  deriving Repr, Inhabited

inductive SnapOutcome where
  | hold (snap : HeldSnap) (line : Segment)
  | free (offset : Int)
  deriving DecidableEq, Repr, Inhabited

def SnapOutcome.offset : SnapOutcome → Int
  | hold snap _ => snap.offset
  | free z => z

namespace MoveRequest

def desired (r : MoveRequest) : Rect := (r.home.shifted r.offset).reduced margin

end MoveRequest

namespace CableEnds

def moved (c : CableEnds) (offset : Point) : Rect × Rect :=
  if c.inletMoves then (c.outlet, c.inlet.shifted offset)
  else (c.outlet.shifted offset, c.inlet)

/-- How far the box has to go for the cable to be straight; none for a cable that runs upward. -/
def distance? (c : CableEnds) (offset : Point) : Option Int :=
  let (outlet, inlet) := c.moved offset
  if inlet.y < outlet.y then none
  else some (if c.inletMoves then outlet.x - inlet.x else inlet.x - outlet.x)

def line (c : CableEnds) (offset : Point) : Segment :=
  let (outlet, inlet) := c.moved offset
  let x := if c.inletMoves then outlet.centreX else inlet.centreX
  ⟨⟨x, outlet.bottom⟩, ⟨x, inlet.y⟩⟩

end CableEnds

namespace Snapper

/-- The best of the cables so far, and whether one was nearly straight. -/
structure CableSearch where
  best : Option (Int × Segment) := none
  near : Bool := false

def CableSearch.step (settings : SnapSettings) (offset : Point) (found : CableSearch)
    (c : CableEnds) : CableSearch :=
  match c.distance? offset with
  | none => found
  | some d =>
    if settings.reaches d then
      match found.best with
      | some (best, _) =>
        if d.natAbs < best.natAbs then { found with best := some (d, c.line offset) } else found
      | none => { found with best := some (d, c.line offset) }
    else if (d.natAbs : Int) < 2 * settings.tolerance then { found with near := true }
    else found

def searchCables (settings : SnapSettings) (r : MoveRequest) : CableSearch :=
  r.cables.foldl (CableSearch.step settings r.offset) {}

def featureSnap? (settings : SnapSettings) (axis : Axis) (desired other : Rect)
    (target : SnapTarget) : Option (Int × SnapTarget × Segment) :=
  let delta := axis.feature target other - axis.feature target desired
  if target.isEnabled settings && settings.reaches delta then
    some (delta, target,
      axis.line (axis.feature target other) (other.union (axis.shift delta desired)))
  else none

def boxSnap? (settings : SnapSettings) (axis : Axis) (r : MoveRequest) :
    Option (Int × SnapTarget × Segment) :=
  r.others.findSome? fun other =>
    SnapTarget.features.findSome? (featureSnap? settings axis r.desired (other.reduced margin))

/-- What a cable has to say: a snap, or that the axis is left alone, or nothing. -/
def cableOutcome? (settings : SnapSettings) (axis : Axis) (r : MoveRequest) :
    Option SnapOutcome :=
  if axis = .horizontal && settings.snapConnections then
    let raw := r.offset.x
    match searchCables settings r with
    | ⟨some (delta, line), _⟩ => some (.hold ⟨raw + delta, .connection⟩ line)
    | ⟨none, true⟩ => some (.free raw)
    | ⟨none, false⟩ => none
  else none

def boxOutcome? (settings : SnapSettings) (axis : Axis) (r : MoveRequest) : Option SnapOutcome :=
  (boxSnap? settings axis r).map fun (delta, target, line) =>
    .hold ⟨axis.component r.offset + delta, target⟩ line

def gridOutcome (settings : SnapSettings) (axis : Axis) (r : MoveRequest) : SnapOutcome :=
  let raw := axis.component r.offset
  if settings.mode.snapsToGrid then
    .free (raw + gridDelta (axis.start r.desired) (axis.component r.gridOrigin) settings.size)
  else .free raw

def freshOutcome (settings : SnapSettings) (axis : Axis) (r : MoveRequest) : SnapOutcome :=
  if settings.mode.snapsToObjects then
    ((cableOutcome? settings axis r).or (boxOutcome? settings axis r)).getD
      (gridOutcome settings axis r)
  else gridOutcome settings axis r

def freshAxis (settings : SnapSettings) (axis : Axis) (r : MoveRequest) (now : Nat)
    (a : SnapAxis) : SnapAxis × Int :=
  match freshOutcome settings axis r with
  | .hold snap line => (a.hold snap line now, snap.offset)
  | .free z => (a.release now, z)

def moveAxis (settings : SnapSettings) (axis : Axis) (r : MoveRequest) (now : Nat)
    (a : SnapAxis) : SnapAxis × Int :=
  match a.held with
  | some held =>
    if ((held.offset - axis.component r.offset).natAbs : Int) ≤ settings.releaseRange then
      ({ a with guide := a.guide.advance now }, held.offset)
    else freshAxis settings axis r now (a.release now)
  | none => freshAxis settings axis r now a

def move (s : Snapper) (r : MoveRequest) (now : Nat) : Snapper × Point :=
  if r.bypass || s.settings.mode == .off then (s.clear, r.offset)
  else
    let (horizontal, x) := moveAxis s.settings .horizontal r now s.horizontal
    let (vertical, y) := moveAxis s.settings .vertical r now s.vertical
    ({ s with horizontal := horizontal, vertical := vertical }, ⟨x, y⟩)

end Snapper

end Patchbay
