import Patchbay.Canvas.Basic

/-!
Drawing cables from jacks.
-/

namespace Patchbay.Canvas

variable {δ : Type} [Document δ]

/-- The jacks that cables are drawn from: the given one, and with `multi` the same jack of every
other selected box when its own box is selected. -/
def connectionSources (c : Canvas) (jack : JackRef) (multi : Bool) : List JackRef :=
  if multi && c.selection.boxes.contains jack.box then
    jack :: (c.selection.boxes.filter fun key =>
      key != jack.box && (c.scene.jack? { jack with box := key }).isSome).map
        fun key => { jack with box := key }
  else [jack]

def beginConnection (c : Canvas) (jack : JackRef) (multi : Bool) : Canvas × Bool :=
  if c.isBusy then (c, false)
  else
    match c.scene.anchor? jack with
    | none => (c, false)
    | some cursor =>
      ({ c with drag := .connection (c.connectionSources jack multi) cursor }, true)

/-- Moves the loose end; the nearest jack that fits is aimed at. -/
def dragConnection (c : Canvas) (position : Point) : Canvas × Option JackRef :=
  match c.drag with
  | .connection sources _ =>
    let c := { c with drag := .connection sources position }
    match sources with
    | [] => (c, none)
    | source :: _ =>
      let target := c.scene.nearestJack? position source.side.opposite source.box
      (c.aim target, target)
  | _ => (c, none)

/-- The ends of the wire from a source to a target; none when it cannot be or is there. -/
def newEnds? (c : Canvas) (target source : JackRef) : Option Ends :=
  if source.box = target.box ∨ source.side = target.side then none
  else
    let (outlet, inlet) := match source.side with
      | .outlet => (source, target)
      | .inlet => (target, source)
    if c.scene.hasCable outlet inlet then none
    else do
      let outletOwner ← (c.scene.box? outlet.box).bind Box.handle
      let inletOwner ← (c.scene.box? inlet.box).bind Box.handle
      return ⟨outletOwner, outlet.index, inletOwner, inlet.index⟩

def connectOne (state : δ × List Nat) (e : Ends) : δ × List Nat :=
  match Document.connect state.1 e with
  | .ok (handle, d) => (d, state.2 ++ [handle])
  | .error _ => state

def connectLabel : String := "Connect"

/-- Lets go of the loose ends: one wire from each source to the target, all in one sequence.
Answers with the new handles. -/
def endConnection (c : Canvas) (d : δ) : Canvas × δ × List Nat :=
  match c.drag with
  | .connection sources _ =>
    let target := c.target
    let c := { c with drag := .none }.clearTarget
    match target with
    | none => (c, d, [])
    | some target =>
      let wires := sources.filterMap (c.newEnds? target)
      if wires.isEmpty then (c, d, [])
      else
        let (d, created) := Document.inSequence d connectLabel fun d =>
          wires.foldl connectOne (d, [])
        (c.requestSync, d, created)
  | _ => ({ c with drag := .none }, d, [])

def cancelConnection (c : Canvas) : Canvas :=
  match c.drag with
  | .connection _ _ => { c with drag := .none }.clearTarget
  | _ => c

end Patchbay.Canvas
