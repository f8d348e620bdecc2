import Patchbay.Canvas.Basic
import Patchbay.Lattice.Search

/-!
Routes of single cables, and the writing of their tokens to the document.
-/

namespace Patchbay.Canvas

variable {δ : Type} [Document δ]

/-- Keeps a new token with the cable and queues it for the document. -/
def pushToken (c : Canvas) (d : δ) (key : Nat) (token : String) (now : Nat) : Canvas × δ :=
  match c.scene.cable? key with
  | none => (c, d)
  | some cable =>
    let (queue, d) := c.queue.push d cable.handle token now
    ({ c with
        scene := c.scene.updateCable key fun x => { x with token := token, unsaved := true }
        queue := queue }, d)

def markSaved (c : Canvas) : Canvas :=
  { c with scene := c.scene.mapCables fun _ x => { x with unsaved := false } }

/-- Writes the tokens whose time has come, and lets guides fade. -/
def tick (c : Canvas) (d : δ) (now : Nat) : Canvas × δ × Nat :=
  let (queue, d, written) := c.queue.tick d now
  let c := { c with queue := queue }
  let c := if queue.isEmpty then c.markSaved else c
  ({ c with snapper := c.snapper.advance now }, d, written)

def flushTokens (c : Canvas) (d : δ) : Canvas × δ × Nat :=
  let (queue, d, written) := c.queue.flush d
  ({ c with queue := queue }.markSaved, d, written)

/-- Leads a cable around the other boxes; none when there is no such cable. -/
def routeCable (c : Canvas) (d : δ) (key : Nat) (now : Nat) : Canvas × δ × Option Route :=
  match c.scene.cable? key, c.scene.anchors? key with
  | some cable, some (start, stop) =>
    let obstacles := c.scene.obstacles [cable.outlet.box, cable.inlet.box]
    let route := Route.around start stop obstacles c.settings.routing
    let c := { c with scene := c.scene.updateCable key fun x => { x with route := route } }
    let (c, d) := c.pushToken d key route.token now
    (c, d, some route)
  | _, _ => (c, d, none)

def straightenCable (c : Canvas) (d : δ) (key : Nat) (now : Nat) : Canvas × δ × Bool :=
  match c.scene.cable? key with
  | none => (c, d, false)
  | some _ =>
    let c := { c with scene := c.scene.updateCable key fun x => { x with route := .straight } }
    let (c, d) := c.pushToken d key "" now
    (c, d, true)

/-- Lets a cable follow its anchors and says whether its route changed. -/
def reanchorCable (c : Canvas) (key : Nat) : Canvas × Bool :=
  match c.scene.cable? key, c.scene.anchors? key with
  | some cable, some (start, stop) =>
    let route := cable.route.reanchor start stop
    ({ c with scene := c.scene.updateCable key fun x => { x with route := route } },
      route != cable.route)
  | _, _ => (c, false)

end Patchbay.Canvas
