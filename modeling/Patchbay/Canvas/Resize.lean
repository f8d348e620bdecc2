import Patchbay.Canvas.Basic

/-!
Resizing a box by its edges.
-/

namespace Patchbay.Canvas

variable {δ : Type} [Document δ]

def beginResize (c : Canvas) (key : Nat) (edges : Edges) (position : Point) : Canvas × Bool :=
  if c.isBusy || !(c.scene.box? key).any (·.widget.canResize) then (c, false)
  else
    ({ c with
        scene := c.scene.updateBox key fun b => { b with home := b.bounds }
        snapper := c.snapper.clear
        drag := .resize key edges position .origin }, true)

/-- Holds the dragged edges back so that the content keeps a least size. -/
def keepMinimum (r : Rect) (edges : Edges) (minimum : Int × Int) : Rect :=
  let width := minimum.1 + 2 * margin
  let height := minimum.2 + 2 * margin
  { x := if r.width < width && edges.left then r.right - width else r.x
    y := if r.height < height && edges.top then r.bottom - height else r.y
    width := max r.width width
    height := max r.height height }

def dragResize (c : Canvas) (position : Point) (bypass : Bool) (now : Nat) :
    Canvas × Option Rect :=
  match c.drag with
  | .resize key edges start _ =>
    match c.scene.box? key with
    | none => (c, none)
    | some b =>
      let request : ResizeRequest :=
        { home := b.home
          offset := position - start
          edges := edges
          ratio := b.widget.fixedRatio
          others := c.restingBounds (some key)
          gridOrigin := c.gridOrigin
          bypass := bypass }
      let (snapper, offset) := c.snapper.resize request now
      let bounds := keepMinimum (edges.apply b.home offset) edges b.widget.minimumSize
      let scene := c.scene.updateBox key fun b => { b with bounds := bounds }.layoutJacks
      ({ { c with snapper := snapper, scene := scene }.follow [key] with
          drag := .resize key edges start offset }, some bounds)
  | _ => (c, none)

def resizeLabel : String := "Resize"

def endResize (c : Canvas) (d : δ) : Canvas × δ × Except EditError (Option Rect) :=
  match c.drag with
  | .resize key _ _ _ =>
    let c := { c with drag := .none, snapper := c.snapper.clear }
    match c.scene.box? key with
    | none => (c, d, .ok none)
    | some b =>
      if b.bounds = b.home then (c, d, .ok (some b.content))
      else
        match b.handle with
        | none => (c, d, .ok (some b.content))
        | some handle =>
          let (d, result) := Document.inSequence d resizeLabel fun d =>
            Document.editAll (fun d r => Document.setBounds d handle r) d [b.content]
          (c.requestSync, d, result.map fun _ => some b.content)
  | _ => ({ c with drag := .none }, d, .ok none)

end Patchbay.Canvas
