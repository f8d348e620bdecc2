import Patchbay.Geometry.Point

/-!
Axis-aligned rectangles: a corner and a size, the right and bottom edges exclusive.
-/

namespace Patchbay

structure Rect where
  x : Int
  y : Int
  width : Int
  height : Int
  deriving DecidableEq, Repr, Inhabited

namespace Rect

def empty : Rect := ⟨0, 0, 0, 0⟩

def ofCorners (a b : Point) : Rect :=
  ⟨min a.x b.x, min a.y b.y, (a.x - b.x).natAbs, (a.y - b.y).natAbs⟩

def position (r : Rect) : Point := ⟨r.x, r.y⟩
def right (r : Rect) : Int := r.x + r.width
def bottom (r : Rect) : Int := r.y + r.height

/-- Half of an odd width is cut toward zero. -/
def centreX (r : Rect) : Int := r.x + r.width.tdiv 2
def centreY (r : Rect) : Int := r.y + r.height.tdiv 2
def centre (r : Rect) : Point := ⟨r.centreX, r.centreY⟩

def isEmpty (r : Rect) : Bool := r.width ≤ 0 || r.height ≤ 0

/-- Moves every side inward; a size never falls below zero. -/
def reduced (r : Rect) (amount : Int) : Rect :=
  ⟨r.x + amount, r.y + amount, max (r.width - 2 * amount) 0, max (r.height - 2 * amount) 0⟩

def expanded (r : Rect) (amount : Int) : Rect :=
  ⟨r.x - amount, r.y - amount, r.width + 2 * amount, r.height + 2 * amount⟩

def shifted (r : Rect) (delta : Point) : Rect :=
  ⟨r.x + delta.x, r.y + delta.y, r.width, r.height⟩

def withPosition (r : Rect) (p : Point) : Rect := ⟨p.x, p.y, r.width, r.height⟩

def contains (r : Rect) (p : Point) : Bool :=
  r.x ≤ p.x && p.x < r.right && r.y ≤ p.y && p.y < r.bottom

/-- For rectangles with an inside, whether the two share a region with an area. -/
def intersects (r s : Rect) : Bool :=
  r.x < s.right && s.x < r.right && r.y < s.bottom && s.y < r.bottom

def union (r s : Rect) : Rect :=
  let x := min r.x s.x
  let y := min r.y s.y
  ⟨x, y, max r.right s.right - x, max r.bottom s.bottom - y⟩

theorem reduced_expanded {r : Rect} (hw : 0 ≤ r.width) (hh : 0 ≤ r.height) (m : Int) :
    (r.expanded m).reduced m = r := by
  cases r
  simp only [expanded, reduced, mk.injEq] at *
  omega

@[simp] theorem shifted_width (r : Rect) (d : Point) : (r.shifted d).width = r.width := rfl
@[simp] theorem shifted_height (r : Rect) (d : Point) : (r.shifted d).height = r.height := rfl
@[simp] theorem withPosition_width (r : Rect) (p : Point) : (r.withPosition p).width = r.width := rfl
@[simp] theorem withPosition_height (r : Rect) (p : Point) : (r.withPosition p).height = r.height := rfl

end Rect

end Patchbay
