import Patchbay.Snap.Axis
import Patchbay.Snap.Guide

/-!
The state of snapping: on each axis a snap that is held, and a guide line.
-/

namespace Patchbay

structure HeldSnap where
  offset : Int
  target : SnapTarget
  deriving DecidableEq, Repr, Inhabited

structure SnapAxis where
  held : Option HeldSnap := none
  guide : Guide := {}
  deriving Inhabited

structure Snapper where
  settings : SnapSettings
  horizontal : SnapAxis := {}
  vertical : SnapAxis := {}
  deriving Inhabited

namespace SnapAxis

def hold (s : SnapAxis) (snap : HeldSnap) (line : Segment) (now : Nat) : SnapAxis :=
  ⟨some snap, s.guide.display line now⟩

def release (s : SnapAxis) (now : Nat) : SnapAxis := ⟨none, s.guide.release now⟩

end SnapAxis

namespace Snapper

def axis (s : Snapper) : Axis → SnapAxis
  | .horizontal => s.horizontal
  | .vertical => s.vertical

def clear (s : Snapper) : Snapper := { settings := s.settings }

def setSettings (_ : Snapper) (settings : SnapSettings) : Snapper := { settings := settings }

def advance (s : Snapper) (now : Nat) : Snapper :=
  { s with
    horizontal := { s.horizontal with guide := s.horizontal.guide.advance now }
    vertical := { s.vertical with guide := s.vertical.guide.advance now } }

def needsRepaint (s : Snapper) : Bool :=
  s.horizontal.guide.needsRepaint || s.vertical.guide.needsRepaint

/-- The offset to commit when the mouse goes up: on each axis the one that is held. -/
def settle (s : Snapper) (offset : Point) : Point :=
  ⟨(s.horizontal.held.map HeldSnap.offset).getD offset.x,
    (s.vertical.held.map HeldSnap.offset).getD offset.y⟩

end Snapper

end Patchbay
