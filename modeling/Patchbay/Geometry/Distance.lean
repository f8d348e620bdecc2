import Patchbay.Geometry.Segment
import Patchbay.Number.Binary

/-!
Distances between points and segments, in single precision.
-/

namespace Patchbay

def hypotenuse (dx dy : Rat) : Rat :=
  Single.sqrt (Single.add (Single.mul dx dx) (Single.mul dy dy))

def unitInterval (t : Rat) : Rat := if t < 0 then 0 else if 1 < t then 1 else t

def Point.distance (p q : Point) : Rat :=
  hypotenuse (Single.ofInt (q.x - p.x)) (Single.ofInt (q.y - p.y))

/-- Distance to the nearest point of the segment: the foot of the perpendicular where it falls
between the ends, else the nearer end. -/
def Segment.distance (s : Segment) (p : Point) : Rat :=
  let ax := Single.ofInt s.start.x
  let ay := Single.ofInt s.start.y
  let px := Single.ofInt p.x
  let py := Single.ofInt p.y
  let dx := Single.sub (Single.ofInt s.stop.x) ax
  let dy := Single.sub (Single.ofInt s.stop.y) ay
  let square := Single.add (Single.mul dx dx) (Single.mul dy dy)
  if square = 0 then
    hypotenuse (Single.sub px ax) (Single.sub py ay)
  else
    let along := Single.add (Single.mul (Single.sub px ax) dx) (Single.mul (Single.sub py ay) dy)
    let t := unitInterval (Single.div along square)
    hypotenuse (Single.sub px (Single.add ax (Single.mul t dx)))
      (Single.sub py (Single.add ay (Single.mul t dy)))

end Patchbay
