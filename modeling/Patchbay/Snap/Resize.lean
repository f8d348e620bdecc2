import Patchbay.Snap.Basic
import Patchbay.Scene.Jack

/-!
Snapping of a box that is resized. Only the edges that are dragged snap; where the shape has to
be kept, one axis then follows the other.
-/

namespace Patchbay

structure Edges where
  left : Bool := false
  right : Bool := false
  top : Bool := false
  bottom : Bool := false
  deriving DecidableEq, Repr, Inhabited

namespace Edges

def apply (e : Edges) (r : Rect) (offset : Point) : Rect :=
  let left := if e.left then r.x + offset.x else r.x
  let right := if e.right then r.right + offset.x else r.right
  let top := if e.top then r.y + offset.y else r.y
  let bottom := if e.bottom then r.bottom + offset.y else r.bottom
  ⟨left, top, right - left, bottom - top⟩

def horizontal (e : Edges) : Bool := e.left || e.right
def vertical (e : Edges) : Bool := e.top || e.bottom

def drags (e : Edges) : Axis → Bool
  | .horizontal => e.horizontal
  | .vertical => e.vertical

def dragsStart (e : Edges) : Axis → Bool
  | .horizontal => e.left
  | .vertical => e.top

end Edges

structure ResizeRequest where
  home : Rect
  offset : Point
  edges : Edges
  /-- Width over height of the content, where it has to be kept. -/
  ratio : Option Rat := none
  others : List Rect
  gridOrigin : Point := .origin
  bypass : Bool := false
  deriving Repr, Inhabited

namespace Snapper

def edgeLine? (settings : SnapSettings) (axis : Axis) (edge : Int) (bounds other : Rect)
    (target : SnapTarget) : Option (Int × Segment) :=
  let place := axis.feature target other
  if target.isEnabled settings && settings.reaches (place - edge) then
    some (place - edge, axis.line place (other.union bounds))
  else none

def edgeSnap? (settings : SnapSettings) (axis : Axis) (edge : Int) (bounds : Rect)
    (others : List Rect) : Option (Int × Segment) :=
  if settings.mode.snapsToObjects then
    others.findSome? fun other =>
      SnapTarget.features.findSome? (edgeLine? settings axis edge bounds (other.reduced margin))
  else none

/-- One axis of a resize: the guide, the offset and whether the edge snapped to a box. -/
def resizeAxis (settings : SnapSettings) (axis : Axis) (r : ResizeRequest) (now : Nat)
    (guide : Guide) (offset : Point) : Guide × Point × Bool :=
  if r.edges.drags axis then
    let bounds := (r.edges.apply r.home offset).reduced margin
    let edge := if r.edges.dragsStart axis then axis.start bounds else axis.stop bounds
    match edgeSnap? settings axis edge bounds r.others with
    | some (delta, line) =>
      (guide.display line now, axis.setComponent offset (axis.component offset + delta), true)
    | none =>
      let delta := if settings.mode.snapsToGrid then
        gridDelta edge (axis.component r.gridOrigin) settings.size else 0
      (guide.release now, axis.setComponent offset (axis.component offset + delta), false)
  else (guide.release now, offset, false)

/-- Makes one part of an offset follow from the other. The width leads unless only the vertical
edge is dragged or snapped. -/
def keepRatio (r : ResizeRequest) (ratio : Rat) (offset : Point) (snappedX snappedY : Bool) :
    Point :=
  let home := r.home.reduced margin
  let resized := (r.edges.apply r.home offset).reduced margin
  if r.edges.horizontal && (snappedX || !snappedY || !r.edges.vertical) then
    let change := Single.nearest (Single.div (Single.ofInt resized.width) ratio) - home.height
    offset.withY (if r.edges.top then -change else change)
  else if r.edges.vertical then
    let change := Single.nearest (Single.mul (Single.ofInt resized.height) ratio) - home.width
    offset.withX (if r.edges.left then -change else change)
  else offset

def applyRatio (r : ResizeRequest) (offset : Point) (snappedX snappedY : Bool) : Point :=
  match r.ratio with
  | some ratio => if 0 < ratio then keepRatio r ratio offset snappedX snappedY else offset
  | none => offset

def resize (s : Snapper) (r : ResizeRequest) (now : Nat) : Snapper × Point :=
  if r.bypass || s.settings.mode == .off then
    (s.clear, applyRatio r r.offset false false)
  else
    let (across, offset, snappedX) :=
      resizeAxis s.settings .horizontal r now s.horizontal.guide r.offset
    let (down, offset, snappedY) :=
      resizeAxis s.settings .vertical r now s.vertical.guide offset
    ({ s with
        horizontal := { s.horizontal with guide := across }
        vertical := { s.vertical with guide := down } },
      applyRatio r offset snappedX snappedY)

end Snapper

end Patchbay
