/-!
Points of the canvas, in whole pixels.

Here and wherever routes, lattices and bounds are computed with, coordinates and lengths are taken to
stay far enough inside 32 bits, and counts and indices inside 64, that nothing overflows: they are
plain integers and natural numbers. Only what is written down is measured (Token.Fits).
-/

namespace Patchbay

structure Point where
  x : Int
  y : Int
  deriving DecidableEq, Repr, Inhabited

namespace Point

def origin : Point := ⟨0, 0⟩

instance : Add Point := ⟨fun p q => ⟨p.x + q.x, p.y + q.y⟩⟩
instance : Sub Point := ⟨fun p q => ⟨p.x - q.x, p.y - q.y⟩⟩
instance : Neg Point := ⟨fun p => ⟨-p.x, -p.y⟩⟩

def withX (p : Point) (x : Int) : Point := ⟨x, p.y⟩
def withY (p : Point) (y : Int) : Point := ⟨p.x, y⟩

def manhattan (p q : Point) : Nat := (q.x - p.x).natAbs + (q.y - p.y).natAbs

@[simp] theorem add_x (p q : Point) : (p + q).x = p.x + q.x := rfl
@[simp] theorem add_y (p q : Point) : (p + q).y = p.y + q.y := rfl
@[simp] theorem sub_x (p q : Point) : (p - q).x = p.x - q.x := rfl
@[simp] theorem sub_y (p q : Point) : (p - q).y = p.y - q.y := rfl
@[simp] theorem neg_x (p : Point) : (-p).x = -p.x := rfl
@[simp] theorem neg_y (p : Point) : (-p).y = -p.y := rfl

@[ext] theorem ext {p q : Point} (hx : p.x = q.x) (hy : p.y = q.y) : p = q := by
  cases p; cases q; simp_all

theorem manhattan_triangle (p q r : Point) : p.manhattan r ≤ p.manhattan q + q.manhattan r := by
  simp only [manhattan]; omega

end Point

end Patchbay
