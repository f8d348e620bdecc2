import Patchbay.Document.Basic
import Patchbay.Scene.Jack
import Patchbay.Scene.Widget

/-!
Boxes: the nodes of a document as a canvas shows them, and those that are still being typed.
-/

namespace Patchbay

structure Box where
  /-- None until the box is committed to the document. -/
  handle : Option Nat
  widget : Widget
  /-- The content with its margin. -/
  bounds : Rect
  /-- The inlets, then the outlets. -/
  jackList : List Jack := []
  inletCount : Nat := 0
  outletCount : Nat := 0
  selected : Bool := false
  /-- The bounds at the start of a drag. -/
  home : Rect := .empty
  /-- A new box whose text is still being typed. -/
  editing : Bool := false
  /-- Place in the document; none for a box that is not in it. -/
  index : Option Nat
  deriving DecidableEq, Repr, Inhabited

namespace Box

def kind (b : Box) : String := b.widget.kind
def content (b : Box) : Rect := b.bounds.reduced margin

def inlets (b : Box) : List Jack := b.jackList.take b.inletCount
def outlets (b : Box) : List Jack := b.jackList.drop b.inletCount

def group (b : Box) : Side → List Jack
  | .inlet => b.inlets
  | .outlet => b.outlets

/-- Where the list has a jack of a side. -/
def slot? (b : Box) (side : Side) (index : Nat) : Option Nat :=
  match side with
  | .inlet => if index < b.inletCount then some index else none
  | .outlet => if index < b.outletCount then some (b.inletCount + index) else none

def jack? (b : Box) (side : Side) (index : Nat) : Option Jack :=
  (b.slot? side index).bind fun i => b.jackList[i]?

def mapJack (b : Box) (side : Side) (index : Nat) (f : Jack → Jack) : Box :=
  match b.slot? side index with
  | some i => { b with jackList := b.jackList.modify i f }
  | none => b

def labelledJacks (b : Box) : List (Side × Nat × Jack) :=
  b.jackList.map fun p => (p.side, p.index, p)

def layout (b : Box) : Jack.Layout :=
  ⟨b.bounds.width, b.bounds.height, b.inletCount, b.outletCount⟩

def layoutJacks (b : Box) : Box :=
  { b with jackList := Jack.place b.layout b.widget.showsJacks b.jackList }

/-- Brings both sides to the given flags, new jacks in no place yet. -/
def resizeGroups (b : Box) (inlets outlets : List Bool) : Box :=
  let ins := Jack.fit .inlet b.inlets inlets
  let outs := Jack.fit .outlet b.outlets outlets
  { b with jackList := ins ++ outs, inletCount := ins.length, outletCount := outs.length }

def fitJacks (b : Box) (inlets outlets : List Bool) : Box :=
  (b.resizeGroups inlets outlets).layoutJacks

/-- Whether fitting the jacks to the given flags changes a flag, a number or a place. -/
def jacksDiffer (b : Box) (inlets outlets : List Bool) : Bool :=
  let flags (b : Box) := b.jackList.map fun p => (p.side, p.signal)
  let places (b : Box) := b.jackList.map Jack.bounds
  let resized := b.resizeGroups inlets outlets
  flags b != flags resized || places resized.layoutJacks != places resized

def ofInfo (handle : Nat) (info : NodeInfo) (index : Nat) : Box :=
  let bare : Box :=
    { handle := some handle
      widget := Widget.ofKind info.kind
      bounds := info.bounds.expanded margin
      index := some index }
  bare.fitJacks info.inlets info.outlets

def blank (position : Point) : Box where
  handle := none
  widget := Widget.ofKind ""
  bounds := (Rect.mk position.x position.y 60 20).expanded margin
  editing := true
  index := none

/-- Kind and bounds of a node, with the jacks not yet fitted to it. -/
def dress (b : Box) (info : NodeInfo) : Box :=
  { b with
    widget := Widget.ofKind info.kind
    bounds := info.bounds.expanded margin }

def refresh (b : Box) (info : NodeInfo) : Box := (b.dress info).fitJacks info.inlets info.outlets

def isStale (b : Box) (info : NodeInfo) : Bool :=
  b.kind != info.kind || b.bounds != info.bounds.expanded margin
    || (b.dress info).jacksDiffer info.inlets info.outlets

def jackBounds (b : Box) (p : Jack) : Rect := p.bounds.shifted b.bounds.position

end Box

end Patchbay
