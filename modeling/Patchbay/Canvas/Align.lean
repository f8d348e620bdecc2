import Patchbay.Canvas.Basic

/-!
Lining up the selected boxes.
-/

namespace Patchbay

inductive Alignment where
  | left
  | right
  | top
  | bottom
  | centreX
  | centreY
  deriving DecidableEq, Repr

namespace Alignment

def average (zs : List Int) : Int := (zs.foldr (· + ·) 0).tdiv zs.length

def goal (a : Alignment) (contents : List Rect) : Int :=
  match a with
  | left => (contents.map Rect.x).min?.getD 0
  | right => (contents.map Rect.right).max?.getD 0
  | top => (contents.map Rect.y).min?.getD 0
  | bottom => (contents.map Rect.bottom).max?.getD 0
  | centreX => average (contents.map Rect.centreX)
  | centreY => average (contents.map Rect.centreY)

def place (a : Alignment) (goal : Int) (r : Rect) : Point :=
  match a with
  | left => r.position.withX goal
  | right => r.position.withX (goal - r.width)
  | top => r.position.withY goal
  | bottom => r.position.withY (goal - r.height)
  | centreX => r.position.withX (goal - r.width.tdiv 2)
  | centreY => r.position.withY (goal - r.height.tdiv 2)

end Alignment

namespace Canvas

variable {δ : Type} [Document δ]

/-- Selected boxes that are in the document: key, handle and content. -/
def alignable (c : Canvas) : Keyed (Nat × Rect) :=
  c.selection.boxes.filterMap fun key => do
    let b ← c.scene.box? key
    let handle ← b.handle
    return (key, handle, b.content)

/-- The boxes that an alignment moves: key, handle and new place of the content. -/
def alignMoves (c : Canvas) (a : Alignment) : Keyed (Nat × Point) :=
  let items := c.alignable
  let goal := a.goal (items.map fun (_, _, r) => r)
  if items.length < 2 then []
  else items.filterMap fun (key, handle, r) =>
    if a.place goal r = r.position then none else some (key, handle, a.place goal r)

def placeBox (scene : Scene) (move : Nat × Nat × Point) : Scene :=
  scene.updateBox move.1 fun b =>
    { b with bounds := b.bounds.withPosition (move.2.2 - ⟨margin, margin⟩) }

def alignLabel : String := "Align"

/-- Lines up the selected boxes in one sequence and says how many moved. -/
def alignSelection (c : Canvas) (d : δ) (a : Alignment) : Canvas × δ × Except EditError Nat :=
  if c.locked then (c, d, .ok 0)
  else
    let moves := c.alignMoves a
    if moves.isEmpty then (c, d, .ok 0)
    else
      let c := c.requestSync
      let (d, result) := Document.inSequence d alignLabel fun d =>
        Document.editAll (fun d (m : Nat × Nat × Point) => Document.moveNodeTo d m.2.1 m.2.2) d moves
      match result with
      | .error e => (c, d, .error e)
      | .ok () =>
        ({ c with scene := moves.foldl placeBox c.scene }.follow (Keyed.keys moves),
          d, .ok moves.length)

end Canvas

end Patchbay
