import Patchbay.Document.Error
import Patchbay.Geometry.Rect

/-!
What a canvas can ask of a document and do to it.

A document is read through listings. It is edited by calls that either take effect or are
refused without effect, and edits between the opening and the closing of a sequence are undone
together.
-/

namespace Patchbay

structure NodeInfo where
  kind : String
  bounds : Rect
  /-- One flag for each inlet, set where it takes a signal. -/
  inlets : List Bool
  outlets : List Bool
  deriving DecidableEq, Repr, Inhabited

structure NodeEntry where
  handle : Nat
  index : Nat
  deriving DecidableEq, Repr

structure WireEntry where
  handle : Nat
  ends : Ends
  deriving DecidableEq, Repr

/-- A view of a document at one moment. Entries and details need not agree: a node can be listed
that has no details any more. -/
structure Listing where
  nodes : List NodeEntry
  wires : List WireEntry
  info : Nat → Option NodeInfo
  token : Nat → Option String

def Listing.hasWire (l : Listing) (handle : Nat) : Bool := l.wires.any (·.handle == handle)

class Document (δ : Type) where
  /-- Lets pending changes arrive, so that the next listing shows them. -/
  deliver : δ → δ
  listing : δ → Listing
  setToken : δ → (wire : Nat) → (token : String) → Except EditError δ
  createNode : δ → (text : String) → (position : Point) → Except EditError (Nat × δ)
  moveNode : δ → (node : Nat) → (delta : Point) → Except EditError δ
  moveNodeTo : δ → (node : Nat) → (position : Point) → Except EditError δ
  setBounds : δ → (node : Nat) → (bounds : Rect) → Except EditError δ
  removeNodes : δ → (nodes : List Nat) → Except EditError δ
  connect : δ → Ends → Except EditError (Nat × δ)
  /-- The token is the one that an undo brings back. -/
  disconnect : δ → Ends → (token : String) → Except EditError δ
  openSequence : δ → (label : String) → δ
  closeSequence : δ → δ

namespace Document

variable {δ : Type} [Document δ]

def inSequence {α : Type} (d : δ) (label : String) (body : δ → δ × α) : δ × α :=
  let result := body (openSequence d label)
  (closeSequence result.1, result.2)

/-- Makes one edit after the other, up to the first that is refused. -/
def editAll {β : Type} (edit : δ → β → Except EditError δ) : δ → List β → δ × Except EditError Unit
  | d, [] => (d, .ok ())
  | d, b :: rest =>
    match edit d b with
    | .ok d => editAll edit d rest
    | .error e => (d, .error e)

end Document

end Patchbay
