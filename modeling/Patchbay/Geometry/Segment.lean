import Patchbay.Geometry.Rect

/-!
Straight pieces of a cable, and whether one passes through a rectangle.

The crossing check clips the segment against the open rectangle side by side in double
precision, so a piece that only touches the border does not cross.
-/

namespace Patchbay

structure Segment where
  start : Point
  stop : Point
  deriving DecidableEq, Repr, Inhabited

namespace Segment

def isHorizontal (s : Segment) : Bool := s.start.y = s.stop.y
def isVertical (s : Segment) : Bool := s.start.x = s.stop.x
def isAxisAligned (s : Segment) : Bool := s.isHorizontal || s.isVertical
def length (s : Segment) : Nat := s.start.manhattan s.stop

/-- The part of a segment that is left of it, as two parameters along the segment. -/
structure Clip where
  lower : Float
  upper : Float

/-- Cuts a clip to the side of a line: `p` is the speed toward the line and `q` the room
before it. Nothing is left of a segment that runs along the line or outside it. -/
def Clip.cut (c : Clip) (p q : Float) : Option Clip :=
  if p == 0 then
    if q ≤ 0 then none else some c
  else
    let r := q / p
    if p < 0 then
      if c.upper < r then none else some ⟨if c.lower < r then r else c.lower, c.upper⟩
    else
      if r < c.lower then none else some ⟨c.lower, if r < c.upper then r else c.upper⟩

def crosses (s : Segment) (r : Rect) : Bool :=
  if r.isEmpty then false else
  let x := Float.ofInt s.start.x
  let y := Float.ofInt s.start.y
  let dx := Float.ofInt (s.stop.x - s.start.x)
  let dy := Float.ofInt (s.stop.y - s.start.y)
  let left := Float.ofInt r.x
  let right := Float.ofInt r.right
  let top := Float.ofInt r.y
  let bottom := Float.ofInt r.bottom
  let clip := do
    let c ← Clip.cut ⟨0, 1⟩ (-dx) (x - left)
    let c ← c.cut dx (right - x)
    let c ← c.cut (-dy) (y - top)
    c.cut dy (bottom - y)
  match clip with
  | none => false
  | some c =>
    if c.upper ≤ c.lower then false else
    let mid := (c.lower + c.upper) * 0.5
    let mx := x + mid * dx
    let my := y + mid * dy
    left < mx && mx < right && top < my && my < bottom

end Segment

def segments : List Point → List Segment
  | p :: q :: rest => ⟨p, q⟩ :: segments (q :: rest)
  | _ => []

theorem length_segments : ∀ ps : List Point, (segments ps).length = ps.length - 1
  | [] => rfl
  | [_] => rfl
  | p :: q :: rest => by
    simp only [segments, List.length_cons, length_segments (q :: rest)]
    omega

end Patchbay
