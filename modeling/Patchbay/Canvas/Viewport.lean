import Patchbay.Geometry.Rect
import Patchbay.Number.Binary

/-!
The part of a canvas that is on the screen.
-/

namespace Patchbay

structure Viewport where
  pan : Point := .origin
  /-- Screen pixels for one pixel of the canvas, a single-precision number. -/
  zoom : Rat := 1
  /-- Size on the screen; without one the whole canvas is in view. -/
  size : Option (Int × Int) := none
  deriving DecidableEq, Repr, Inhabited

namespace Viewport

/-- A zoom that is not positive counts as none. -/
def scale (v : Viewport) : Rat := if 0 < v.zoom then v.zoom else 1

def bounds? (v : Viewport) : Option Rect :=
  v.size.map fun (width, height) =>
    ⟨v.pan.x, v.pan.y, Single.ceiling (Single.div (Single.ofInt width) v.scale),
      Single.ceiling (Single.div (Single.ofInt height) v.scale)⟩

def shows (v : Viewport) (r : Rect) : Bool :=
  match v.bounds? with
  | some view => view.intersects r
  | none => true

def toCanvas (v : Viewport) (screen : Point) : Point :=
  ⟨v.pan.x + Single.nearest (Single.div (Single.ofInt screen.x) v.scale),
    v.pan.y + Single.nearest (Single.div (Single.ofInt screen.y) v.scale)⟩

def panBy (v : Viewport) (delta : Point) : Viewport := { v with pan := v.pan - delta }

end Viewport

end Patchbay
