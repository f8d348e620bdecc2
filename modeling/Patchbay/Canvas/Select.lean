import Patchbay.Canvas.Basic

/-!
Selecting boxes and cables, one by one or with the lasso.
-/

namespace Patchbay.Canvas

def selectBox (c : Canvas) (key : Nat) (toggle : Bool) : Canvas :=
  if c.locked || (c.scene.box? key).isNone then c
  else
    { c with
      selection :=
        if toggle then c.selection.toggleBox key else c.selection.onlyBox key }.markSelection

def selectCable (c : Canvas) (key : Nat) (toggle : Bool) : Canvas :=
  if c.locked || (c.scene.cable? key).isNone then c
  else
    { c with
      selection :=
        if toggle then c.selection.toggleCable key else c.selection.onlyCable key }.markSelection

def deselectAll (c : Canvas) : Canvas := { c with selection := {} }.markSelection

def beginLasso (c : Canvas) (position : Point) : Canvas × Bool :=
  if c.isBusy then (c, false)
  else
    ({ c.deselectAll with
        selection := { lasso := some ⟨position, position⟩ }
        drag := .lasso }, true)

def updateLasso (c : Canvas) (position : Point) : Canvas :=
  if c.drag = .lasso then
    { c with
      selection := { c.selection with
        lasso := c.selection.lasso.map fun l => { l with stop := position } } }
  else c

def endLasso (c : Canvas) : Canvas × Nat :=
  if c.drag = .lasso then
    let (selection, count) := c.selection.closeLasso c.scene
    ({ c with drag := .none, selection := selection }.markSelection, count)
  else (c, 0)

end Patchbay.Canvas
