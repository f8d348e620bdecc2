import Patchbay.Geometry.Segment
import Patchbay.Number.Rounding
import Patchbay.Settings.Basic

/-!
The two axes on which things snap, the features that can line up on an axis, and grid lines.
-/

namespace Patchbay

inductive Axis where
  | horizontal
  | vertical
  deriving DecidableEq, Repr, Inhabited

inductive SnapTarget where
  | start
  | centre
  | stop
  /-- The two ends of a cable, which becomes straight. -/
  | connection
  deriving DecidableEq, Repr, Inhabited

namespace Axis

def component : Axis → Point → Int
  | horizontal, p => p.x
  | vertical, p => p.y

def setComponent : Axis → Point → Int → Point
  | horizontal, p, z => p.withX z
  | vertical, p, z => p.withY z

def start : Axis → Rect → Int
  | horizontal, r => r.x
  | vertical, r => r.y

def centre : Axis → Rect → Int
  | horizontal, r => r.centreX
  | vertical, r => r.centreY

def stop : Axis → Rect → Int
  | horizontal, r => r.right
  | vertical, r => r.bottom

def feature (axis : Axis) : SnapTarget → Rect → Int
  | .start, r => axis.start r
  | .stop, r => axis.stop r
  | .centre, r | .connection, r => axis.centre r

def shift : Axis → Int → Rect → Rect
  | horizontal, z, r => r.shifted ⟨z, 0⟩
  | vertical, z, r => r.shifted ⟨0, z⟩

def line : Axis → Int → Rect → Segment
  | horizontal, x, r => ⟨⟨x, r.y⟩, ⟨x, r.bottom⟩⟩
  | vertical, y, r => ⟨⟨r.x, y⟩, ⟨r.right, y⟩⟩

end Axis

namespace SnapTarget

def features : List SnapTarget := [start, centre, stop]

def isEnabled (settings : SnapSettings) : SnapTarget → Bool
  | centre => settings.snapCentres
  | _ => settings.snapEdges

end SnapTarget

def SnapSettings.reaches (settings : SnapSettings) (distance : Int) : Bool :=
  (distance.natAbs : Int) ≤ settings.tolerance

def gridDelta (position origin size : Int) : Int :=
  if size ≤ 0 then 0
  else Rounding.halfAway (position - origin) size.toNat * size - (position - origin)

end Patchbay
