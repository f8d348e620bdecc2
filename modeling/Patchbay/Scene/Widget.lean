/-!
Widgets: what a canvas has to know about boxes of a kind. Nothing here draws.
-/

namespace Patchbay

inductive Widget where
  | text (kind : String)
  | message
  | comment
  /-- A control with a label; a square one keeps its shape. -/
  | control (kind : String) (square : Bool)
  deriving DecidableEq, Repr, Inhabited

namespace Widget

def squareControls : List String := ["tgl", "bng"]

def freeControls : List String := ["hsl", "vsl", "hradio", "vradio", "nbx", "knob", "cnv", "vu"]

def ofKind (kind : String) : Widget :=
  if kind = "msg" then message
  else if kind = "comment" then comment
  else if squareControls.contains kind then control kind true
  else if freeControls.contains kind then control kind false
  else text kind

def kind : Widget → String
  | text k => k
  | message => "msg"
  | comment => "comment"
  | control k _ => k

/-- Width over height of the content, where a resize has to keep it. -/
def fixedRatio : Widget → Option Rat
  | control _ true => some 1
  | _ => none

def hasLabel : Widget → Bool
  | control _ _ => true
  | _ => false

/-- Whether jacks are drawn and can be wired by hand. -/
def showsJacks : Widget → Bool
  | comment => false
  | _ => true

def minimumSize : Widget → Int × Int
  | text _ | message => (25, 20)
  | comment => (25, 15)
  | control _ true => (15, 15)
  | control _ false => (8, 8)

def canResize (_ : Widget) : Bool := true

theorem kind_ofKind (k : String) : (ofKind k).kind = k := by
  simp only [ofKind]
  split
  case isTrue h => exact h.symm
  case isFalse =>
    split
    case isTrue h => exact h.symm
    case isFalse =>
      split
      case isTrue => rfl
      case isFalse => split <;> rfl

end Widget

end Patchbay
