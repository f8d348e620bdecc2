import Patchbay.Geometry.Segment

/-!
Plans: polylines of horizontal and vertical pieces whose first and last pieces are vertical,
so that a cable leaves an outlet and enters an inlet head-on.

A plan is edited by moving one of its inner pieces sideways, or by moving its ends and letting
their neighbours follow.
-/

namespace Patchbay

abbrev Plan := List Point

namespace Plan

/-- Whether a list of points is a plan: four points or more, no slanted piece, vertical ends. -/
def isValid (ps : Plan) : Bool :=
  4 ≤ ps.length && (segments ps).all Segment.isAxisAligned
    && (segments ps).head?.all Segment.isVertical && (segments ps).getLast?.all Segment.isVertical

/-- Moves the first point to an anchor; the second follows sideways. -/
def anchorHead (anchor : Point) : Plan → Plan
  | _ :: q :: rest => anchor :: q.withX anchor.x :: rest
  | ps => ps

def anchor (start stop : Point) (ps : Plan) : Plan :=
  (anchorHead stop (anchorHead start ps).reverse).reverse

/-- A piece can be dragged when it touches neither end. -/
def isDraggable (ps : Plan) (i : Nat) : Bool := 1 ≤ i && i + 2 < ps.length

inductive Direction where
  | horizontal
  | vertical
  deriving DecidableEq, Repr

/-- How a piece runs. A collapsed piece runs across the piece before it; a slanted one has no
direction. -/
def direction (before a b : Point) : Option Direction :=
  if a = b then some (if before.x = a.x then .horizontal else .vertical)
  else if a.y = b.y then some .horizontal
  else if a.x = b.x then some .vertical
  else none

def shift (delta : Point) : Direction → Point → Point
  | .horizontal, p => p.withY (p.y + delta.y)
  | .vertical, p => p.withX (p.x + delta.x)

def drag (ps : Plan) (i : Nat) (delta : Point) : Option Plan :=
  if ps.isDraggable i then
    match ps[i - 1]?, ps[i]?, ps[i + 1]? with
    | some before, some a, some b =>
      (direction before a b).map fun d =>
        (ps.modify i (shift delta d)).modify (i + 1) (shift delta d)
    | _, _, _ => none
  else none

/-- The plan that a straight cable is given when it is first dragged: one horizontal piece
halfway, or between anchors of one column a vertical piece with a collapsed one at each end. -/
def initial (start stop : Point) : Plan :=
  let dy := stop.y - start.y
  if start.x = stop.x then
    let upper : Point := ⟨start.x, start.y + dy.tdiv 3⟩
    let lower : Point := ⟨start.x, start.y + (2 * dy).tdiv 3⟩
    [start, upper, upper, lower, lower, stop]
  else
    let mid := start.y + dy.tdiv 2
    [start, ⟨start.x, mid⟩, ⟨stop.x, mid⟩, stop]

def middle (ps : Plan) : Nat := ps.length / 2 - 1

@[simp] theorem length_anchorHead (a : Point) (ps : Plan) : (anchorHead a ps).length = ps.length := by
  match ps with
  | [] => rfl
  | [_] => rfl
  | _ :: _ :: _ => rfl

@[simp] theorem length_anchor (a b : Point) (ps : Plan) : (ps.anchor a b).length = ps.length := by
  simp [anchor]

theorem length_drag {ps qs : Plan} {i : Nat} {d : Point} (h : ps.drag i d = some qs) :
    qs.length = ps.length := by
  simp only [drag] at h
  split at h
  case isTrue =>
    split at h
    case h_1 =>
      obtain ⟨_, _, rfl⟩ := Option.map_eq_some_iff.1 h
      simp
    case h_2 => simp at h
  case isFalse => simp at h

end Plan

end Patchbay
