import Patchbay.Canvas.Basic

/-!
Deleting the selection.
-/

namespace Patchbay.Canvas

variable {δ : Type} [Document δ]

/-- The wire of a cable and the token to bring back with it; none for a cable at a box that is
not in the document. -/
def wireOf? (c : Canvas) (cable : Cable) : Option (Ends × String) := do
  let outletOwner ← (c.scene.box? cable.outlet.box).bind Box.handle
  let inletOwner ← (c.scene.box? cable.inlet.box).bind Box.handle
  return (⟨outletOwner, cable.outlet.index, inletOwner, cable.inlet.index⟩, cable.token)

def selectedCables (c : Canvas) : List Cable := c.selection.cables.filterMap c.scene.cable?

/-- Selected cables that do not go with a selected box. -/
def looseWires (c : Canvas) : List (Ends × String) :=
  (c.selectedCables.filter fun x => !x.touchesAny c.selection.boxes).filterMap c.wireOf?

def doomedCables (c : Canvas) : List Nat :=
  c.selectedCables.map Cable.handle ++ c.selection.boxes.flatMap fun key =>
    (c.scene.cables.filter fun e => e.2.touches key).map fun e => e.2.handle

def removeLabel : String := "Remove"

/-- Deletes the selected cables and boxes in one sequence and says how many those are. Tokens
that wait for the cables are forgotten at once. -/
def deleteSelection (c : Canvas) (d : δ) : Canvas × δ × Except EditError Nat :=
  if c.locked || c.selection.isEmpty then (c, d, .ok 0)
  else
    let boxes := c.selection.boxes.filterMap fun key => (c.scene.box? key).map fun b => (key, b)
    let handles := boxes.filterMap fun e => e.2.handle
    let uncommitted := Keyed.keys (boxes.filter fun e => e.2.handle.isNone)
    let wires := c.looseWires
    let c := { c with queue := c.doomedCables.foldl (fun q h => (q.cancel h).1) c.queue }
    let (c, d, result) :=
      if wires.isEmpty && handles.isEmpty then (c, d, .ok ())
      else
        let (d, result) := Document.inSequence d removeLabel fun d =>
          match Document.editAll (fun d (w : Ends × String) => Document.disconnect d w.1 w.2) d wires with
          | (d, .error e) => (d, .error e)
          | (d, .ok ()) =>
            if handles.isEmpty then (d, .ok ())
            else Document.editAll Document.removeNodes d [handles]
        (c.requestSync, d, result)
    match result with
    | .error e => (c, d, .error e)
    | .ok () =>
      ({ c with
          scene := uncommitted.foldl Scene.removeBox c.scene
          selection := {} }.markSelection,
        d, .ok (wires.length + handles.length + uncommitted.length))

end Patchbay.Canvas
