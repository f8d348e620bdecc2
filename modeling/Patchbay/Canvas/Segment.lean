import Patchbay.Canvas.Cable

/-!
Dragging a piece of a cable.
-/

namespace Patchbay.Canvas

variable {δ : Type} [Document δ]

/-- The plan of a cable and its piece at a position. A straight cable gets an initial plan and is
held by the middle piece. -/
def grip? (c : Canvas) (cable : Cable) (start stop position : Point) : Option (Plan × Nat) :=
  match cable.route with
  | .segmented plan =>
    (Route.pieceAt plan position c.settings.routing.hitTolerance).map fun i => (plan, i)
  | .straight =>
    let plan := Plan.initial start stop
    some (plan, plan.middle)

def beginSegment (c : Canvas) (key : Nat) (position : Point) : Canvas × Bool :=
  if c.isBusy then (c, false)
  else
    match c.scene.cable? key, c.scene.anchors? key with
    | some cable, some (start, stop) =>
      match c.grip? cable start stop position with
      | none => (c, false)
      | some (plan, i) =>
        if plan.isDraggable i then
          ({ c with
              drag := .segment
                { cable := key, index := i, start := position, before := cable.route,
                  plan := plan } }, true)
        else (c, false)
    | _, _ => (c, false)

/-- Moves the piece with the mouse and says whether it moved. A drag ends when the cable has
lost an end. -/
def dragSegment (c : Canvas) (position : Point) : Canvas × Bool :=
  match c.drag with
  | .segment drag =>
    match c.scene.anchors? drag.cable with
    | none => ({ c with drag := .none }, false)
    | some (start, stop) =>
      match drag.plan.drag drag.index (position - drag.start) with
      | none => (c, false)
      | some plan =>
        let route := (Route.segmented plan).reanchor start stop
        ({ c with
            scene := c.scene.updateCable drag.cable fun x => { x with route := route }
            drag := .segment { drag with moved := true } }, true)
  | _ => (c, false)

/-- Lets go of the piece and queues the new route; says whether there is one. -/
def endSegment (c : Canvas) (d : δ) (now : Nat) : Canvas × δ × Bool :=
  match c.drag with
  | .segment drag =>
    let c := { c with drag := .none }
    if drag.moved then
      match c.scene.cable? drag.cable with
      | none => (c, d, false)
      | some cable =>
        let (c, d) := c.pushToken d drag.cable cable.route.token now
        (c, d, true)
    else (c, d, false)
  | _ => ({ c with drag := .none }, d, false)

def cancelSegment (c : Canvas) : Canvas :=
  match c.drag with
  | .segment drag =>
    { c with
      drag := .none
      scene := c.scene.updateCable drag.cable fun x => { x with route := drag.before } }
  | _ => { c with drag := .none }

end Patchbay.Canvas
