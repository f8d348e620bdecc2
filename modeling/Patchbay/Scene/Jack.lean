import Patchbay.Document.Error
import Patchbay.Geometry.Rect
import Patchbay.Number.Binary

/-!
Jacks of a box and where they lie along its edges: inlets at the top, outlets at the bottom.
-/

namespace Patchbay

structure Jack where
  side : Side
  /-- Number among the jacks of its side. -/
  index : Nat
  signal : Bool
  targeted : Bool := false
  /-- Relative to the top left corner of the box. -/
  bounds : Rect := .empty
  deriving DecidableEq, Repr, Inhabited

structure JackRef where
  box : Nat
  side : Side
  index : Nat
  deriving DecidableEq, Repr, Inhabited

def margin : Int := 5

namespace Jack

def refit (side : Side) (index : Nat) (old : Option Jack) (signal : Bool) : Jack :=
  match old with
  | some p => { p with signal := signal }
  | none => { side := side, index := index, signal := signal }

/-- Brings a side to the given flags. Jacks are added and dropped at the end only, so the others
stay as they are. -/
def fit (side : Side) (jacks : List Jack) (signals : List Bool) : List Jack :=
  signals.mapIdx fun i signal => refit side i jacks[i]? signal

structure Layout where
  width : Int
  height : Int
  inlets : Nat
  outlets : Nat

namespace Layout

/-- A narrow box with several jacks on a side has small ones. -/
def isNarrow (l : Layout) : Bool := l.width < 45 && (1 < l.inlets || 1 < l.outlets)

def size (l : Layout) : Int := if l.isNarrow then 10 else 13
def border (l : Layout) : Int := if l.isNarrow then 9 else 14

def count (l : Layout) : Side → Nat
  | .inlet => l.inlets
  | .outlet => l.outlets

/-- How far the row of jacks keeps from each end of an edge; many jacks take the border up. -/
def inset (l : Layout) (side : Side) : Int :=
  max 0 (min (l.width - 4 * l.count side - l.border) l.border)

def y (l : Layout) : Side → Int
  | .inlet => margin + 1 - l.size.tdiv 2
  | .outlet => l.height - margin - l.size.tdiv 2

/-- Jacks of a row are spread evenly; a single jack of a small box stands in the middle. -/
def x (l : Layout) (side : Side) (index : Nat) : Int :=
  if l.count side = 1 then
    if l.width < 40 then
      Single.truncate (Single.sub (Single.div (Single.ofInt l.width) 2)
        (Single.div (Single.ofInt l.size) 2))
    else l.inset side
  else
    let row := l.width - 2 * l.inset side
    let step := Single.div (Single.ofInt (row - l.size)) (Single.ofInt (l.count side - 1))
    l.inset side + Single.truncate (Single.mul step (Single.ofInt index))

def bounds (l : Layout) (side : Side) (index : Nat) : Rect :=
  ⟨l.x side index, l.y side, l.size, l.size⟩

end Layout

/-- Puts jacks in their places; those of a widget without jacks take no room. -/
def place (l : Layout) (shown : Bool) (jacks : List Jack) : List Jack :=
  jacks.map fun p => { p with bounds := if shown then l.bounds p.side p.index else .empty }

end Jack

end Patchbay
