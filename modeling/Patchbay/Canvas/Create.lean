import Patchbay.Canvas.Basic

/-!
Placing new boxes and committing them to the document.
-/

namespace Patchbay.Canvas

variable {δ : Type} [Document δ]

def placeBlank (c : Canvas) (position : Point) : Canvas × Option Nat :=
  if c.locked then (c, none)
  else
    let (key, scene) := c.scene.addBox (Box.blank position)
    ({ c with scene := scene, selection := c.selection.onlyBox key }.markSelection, some key)

def cancelBlank (c : Canvas) (key : Nat) : Canvas × Bool :=
  if (c.scene.box? key).any (·.handle.isNone) then
    ({ c with scene := c.scene.removeBox key, selection := c.selection.removeBox key }, true)
  else (c, false)

/-- Makes a node, and keeps the document as it is when it refuses. -/
def createOne (text : String) (position : Point) (d : δ) : δ × Except EditError Nat :=
  match Document.createNode d text position with
  | .ok (handle, d) => (d, .ok handle)
  | .error e => (d, .error e)

def createLabel : String := "Create"

/-- Makes a node of a box and the text typed into it. A box without text is dropped. -/
def commitBlank (c : Canvas) (d : δ) (key : Nat) (text : String) :
    Canvas × δ × Except EditError (Option Nat) :=
  match c.scene.box? key with
  | none => (c, d, .ok none)
  | some b =>
    if b.handle.isSome then (c, d, .ok none)
    else
      let words := Text.trim text.toList
      if words = [] then ((c.cancelBlank key).1, d, .ok none)
      else
        let (d, result) := Document.inSequence d createLabel
          (createOne (String.ofList words) b.content.position)
        match result with
        | .error e => (c, d, .error e)
        | .ok handle =>
          ({ c with
              scene := c.scene.updateBox key fun b =>
                { b with handle := some handle, editing := false } }.requestSync,
            d, .ok (some handle))

end Patchbay.Canvas
