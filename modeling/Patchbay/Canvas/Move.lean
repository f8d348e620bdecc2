import Patchbay.Canvas.Cable

/-!
Moving the selected boxes.
-/

namespace Patchbay.Canvas

variable {δ : Type} [Document δ]

/-- Takes hold of a box. One that is not selected becomes the selection. -/
def beginMove (c : Canvas) (grabbed : Nat) (position : Point) : Canvas × Bool :=
  if c.isBusy || (c.scene.box? grabbed).isNone then (c, false)
  else
    let c := if c.selection.boxes.contains grabbed then c
      else { c with selection := c.selection.onlyBox grabbed }.markSelection
    ({ c with
        scene := c.scene.updateBoxes c.selection.boxes fun b => { b with home := b.bounds }
        snapper := c.snapper.clear
        drag := .boxes grabbed position .origin }, true)

def showOffset (c : Canvas) (offset : Point) : Canvas :=
  let moved := c.selection.boxes
  { c with
    scene := c.scene.updateBoxes moved fun b =>
      { b with bounds := b.home.shifted offset } }.follow moved

/-- Jacks of the cables between the grabbed box and boxes that are not selected, its own jacks
where they were at the start. -/
def cableEnds (c : Canvas) (grabbed : Nat) : List CableEnds :=
  match c.scene.box? grabbed with
  | none => []
  | some b =>
    c.scene.cables.filterMap fun (_, cable) => do
      let inletMoves := cable.inlet.box == grabbed
      if inletMoves == (cable.outlet.box == grabbed) then none
      else
        let (own, other) :=
          if inletMoves then (cable.inlet, cable.outlet) else (cable.outlet, cable.inlet)
        if c.selection.boxes.contains other.box then none
        else
          let jack ← b.jack? own.side own.index
          let ownBounds := jack.bounds.shifted b.home.position
          let otherBounds ← c.scene.jackBounds? other
          return if inletMoves then ⟨otherBounds, ownBounds, true⟩
            else ⟨ownBounds, otherBounds, false⟩

/-- Moves the selected boxes with the mouse; answers with the offset that they now have. -/
def dragMove (c : Canvas) (position : Point) (bypass : Bool) (now : Nat) : Canvas × Point :=
  match c.drag with
  | .boxes grabbed start _ =>
    match c.scene.box? grabbed with
    | none => (c, .origin)
    | some b =>
      let request : MoveRequest :=
        { home := b.home
          offset := position - start
          others := c.restingBounds none
          cables := c.cableEnds grabbed
          gridOrigin := c.gridOrigin
          bypass := bypass }
      let (snapper, offset) := c.snapper.move request now
      ({ { c with snapper := snapper }.showOffset offset with
          drag := .boxes grabbed start offset }, offset)
  | _ => (c, .origin)

/-- Whether a piece of a cable runs through a box that the cable is not at. -/
def isBlocked (c : Canvas) (cable : Cable) (start stop : Point) : Bool :=
  let obstacles := c.scene.obstacles [cable.outlet.box, cable.inlet.box]
  (segments (cable.route.polyline start stop)).any fun s => obstacles.any s.crosses

def routeIfBlocked (now : Nat) (state : Canvas × δ) (key : Nat) : Canvas × δ :=
  let (c, d) := state
  match c.scene.cable? key, c.scene.anchors? key with
  | some cable, some (start, stop) =>
    if c.isBlocked cable start stop then
      let (c, d, _) := c.routeCable d key now
      (c, d)
    else (c, d)
  | _, _ => (c, d)

def routeBlocked (c : Canvas) (d : δ) (moved : List Nat) (now : Nat) : Canvas × δ :=
  (Keyed.keys (c.scene.cables.filter fun e => e.2.touchesAny moved)).foldl
    (routeIfBlocked now) (c, d)

def moveLabel : String := "Move"

/-- Lets go of the boxes and moves their nodes in one sequence. -/
def endMove (c : Canvas) (d : δ) (now : Nat) : Canvas × δ × Except EditError Point :=
  match c.drag with
  | .boxes _ _ offset =>
    let offset := c.snapper.settle offset
    let c := { c with drag := .none, snapper := c.snapper.clear }.showOffset offset
    if offset = .origin then (c, d, .ok offset)
    else
      let moved := c.selection.boxes
      let handles := moved.filterMap fun key => (c.scene.box? key).bind Box.handle
      let c := c.requestSync
      let (d, result) := Document.inSequence d moveLabel fun d =>
        Document.editAll (fun d h => Document.moveNode d h offset) d handles
      match result with
      | .error e => (c, d, .error e)
      | .ok () =>
        if c.settings.routing.autoRouteOnOverlap then
          let (c, d) := c.routeBlocked d moved now
          (c, d, .ok offset)
        else (c, d, .ok offset)
  | _ => ({ c with drag := .none }, d, .ok .origin)

end Patchbay.Canvas
