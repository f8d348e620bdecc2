import Patchbay.Canvas.Segment
import Patchbay.Canvas.Select

/-!
Bringing the canvas in line with its document, leaving a drag, and lock mode.
-/

namespace Patchbay.Canvas

variable {δ : Type} [Document δ]

def dropLostDrag (c : Canvas) : Canvas :=
  if c.drag.isLost c.scene then
    let c := { c with drag := .none }.clearTarget
    { c with snapper := c.snapper.clear }
  else c

/-- Brings the canvas in line with the document. Changes that come in while the document
delivers others are asked for a second time. -/
def sync (c : Canvas) (d : δ) : Canvas × δ × SyncReport :=
  let d := Document.deliver (Document.deliver d)
  let (scene, report) := c.scene.reconcile (Document.listing d)
  let selection := c.selection.retain scene
  let c := { c with scene := scene, syncPending := false, selection := selection }
  (c.markSelection.dropLostDrag, d, report)

/-- Does what was asked for. It waits while boxes are ahead of the document. -/
def idle (c : Canvas) (d : δ) : Canvas × δ × Option SyncReport :=
  if !c.syncPending || c.drag.movesBoxes then (c, d, none)
  else
    let (c, d, report) := c.sync d
    (c, d, some report)

def cancelDrag (c : Canvas) : Canvas :=
  match c.drag with
  | .none => c
  | .boxes _ _ _ =>
    let moved := c.selection.boxes
    let scene := c.scene.updateBoxes moved fun b => { b with bounds := b.home }
    let c := { c with drag := .none, scene := scene }.follow moved
    { c with snapper := c.snapper.clear }
  | .resize key _ _ _ =>
    let scene := c.scene.updateBox key fun b => { b with bounds := b.home }.layoutJacks
    let c := { c with drag := .none, scene := scene }.follow [key]
    { c with snapper := c.snapper.clear }
  | .connection _ _ => { c with drag := .none }.clearTarget
  | .segment _ => c.cancelSegment
  | .lasso => { c with drag := .none, selection := { c.selection with lasso := none } }

/-- A canvas that is being locked gives up its drag and its selection. -/
def setLocked (c : Canvas) (locked : Bool) : Canvas :=
  if locked then { c.cancelDrag.deselectAll with locked := true } else { c with locked := false }

end Patchbay.Canvas
