import Patchbay.Canvas.Drag
import Patchbay.Canvas.Selection
import Patchbay.Canvas.Viewport
import Patchbay.Scene.Pick
import Patchbay.Scene.Reconcile
import Patchbay.Snap.Move
import Patchbay.Token.Queue

/-!
The canvas: a scene with its selection, what is being dragged, snapping, and the tokens that
wait to be written. Here are its parts and what all gestures share.
-/

namespace Patchbay

structure Canvas where
  scene : Scene := {}
  settings : CanvasSettings
  snapper : Snapper
  queue : WriteQueue
  selection : Selection := {}
  drag : Drag := .none
  viewport : Viewport := {}
  gridOrigin : Point := .origin
  locked : Bool := false
  /-- The scene has to be brought in line with the document. -/
  syncPending : Bool := false
  /-- The jack that a cable being drawn would go to. -/
  target : Option JackRef := none
  deriving Inhabited

namespace Canvas

def ofSettings (settings : CanvasSettings) : Canvas :=
  { settings := settings
    snapper := { settings := settings.snap }
    queue := WriteQueue.ofSettings settings.routing }

def setSettings (c : Canvas) (settings : CanvasSettings) : Canvas :=
  { c with
    settings := settings
    snapper := c.snapper.setSettings settings.snap
    queue := c.queue.setSettings settings.routing }

def requestSync (c : Canvas) : Canvas := { c with syncPending := true }

def markSelection (c : Canvas) : Canvas := { c with scene := c.selection.mark c.scene }

def isBusy (c : Canvas) : Bool := c.locked || c.drag != .none

def clearTarget (c : Canvas) : Canvas :=
  match c.target with
  | none => c
  | some p =>
    { c with
      scene := c.scene.updateJack p fun q => { q with targeted := false }
      target := none }

/-- Puts the highlight on a jack that is there, and takes it off any other. -/
def aim (c : Canvas) (target : Option JackRef) : Canvas :=
  if c.target = target then c
  else
    let c := c.clearTarget
    match target with
    | none => c
    | some p =>
      if (c.scene.jack? p).isSome then
        { c with
          scene := c.scene.updateJack p fun q => { q with targeted := true }
          target := some p }
      else c

/-- A cable follows boxes that were moved. A plan between two of them travels along whole. -/
def followMoved (scene : Scene) (moved : List Nat) (c : Cable) : Cable :=
  if c.touchesAny moved then
    match scene.ends? c with
    | none => c
    | some (start, stop) =>
      let both := moved.contains c.outlet.box && moved.contains c.inlet.box
      match c.route with
      | .segmented (p :: ps) =>
        if both then { c with route := .segmented ((p :: ps).map (· + (start - p))) }
        else { c with route := c.route.reanchor start stop }
      | route => { c with route := route.reanchor start stop }
  else c

theorem followMoved_eq (scene : Scene) (moved : List Nat) (c : Cable) :
    followMoved scene moved c = { c with route := (followMoved scene moved c).route } := by
  unfold followMoved
  split
  · split
    · rfl
    · dsimp only
      split
      · split <;> rfl
      · rfl
  · rfl

theorem followMoved_ends (scene : Scene) (moved : List Nat) (c : Cable) :
    (followMoved scene moved c).handle = c.handle ∧ (followMoved scene moved c).outlet = c.outlet ∧
      (followMoved scene moved c).inlet = c.inlet := by
  rw [followMoved_eq]
  exact ⟨rfl, rfl, rfl⟩

def follow (c : Canvas) (moved : List Nat) : Canvas :=
  { c with scene := c.scene.mapCables fun _ => followMoved c.scene moved }

/-- Bounds of the boxes in view that are not selected, leaving out one more. -/
def restingBounds (c : Canvas) (skip : Option Nat) : List Rect :=
  (c.scene.boxes.filter fun (key, b) =>
    some key != skip && !c.selection.boxes.contains key && c.viewport.shows b.bounds).map
      fun (_, b) => b.bounds

def boxAt? (c : Canvas) (position : Point) : Option Nat := c.scene.boxAt? position

def cableAt? (c : Canvas) (position : Point) : Option (Nat × Nat) :=
  c.scene.cableAt? position c.settings.routing.hitTolerance

def jackAt? (c : Canvas) (position : Point) : Option JackRef :=
  if c.locked then none else c.scene.jackAt? position

end Canvas

end Patchbay
