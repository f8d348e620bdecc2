import Patchbay.Document.Basic
import Patchbay.Keyed
import Patchbay.Text.Blank

/-!
What a patch holds: nodes by handle in the order in which they are drawn, and the wires
between them.
-/

namespace Patchbay

structure Node where
  text : String
  bounds : Rect
  /-- One flag for each inlet, set where it takes a signal. -/
  inlets : List Bool
  outlets : List Bool
  deriving DecidableEq, Repr, Inhabited

def Node.kind (n : Node) : String := Text.firstWord n.text

def Node.info (n : Node) : NodeInfo := ⟨n.kind, n.bounds, n.inlets, n.outlets⟩

structure Wire where
  handle : Nat
  ends : Ends
  /-- The route that is kept with the wire; empty for a straight one. -/
  token : String
  deriving DecidableEq, Repr, Inhabited

structure Contents where
  nodes : Keyed Node := []
  wires : List Wire := []
  deriving DecidableEq, Repr, Inhabited

namespace Contents

def node? (c : Contents) (handle : Nat) : Option Node := Keyed.get? c.nodes handle
def hasNode (c : Contents) (handle : Nat) : Bool := Keyed.has c.nodes handle

def wire? (c : Contents) (handle : Nat) : Option Wire := c.wires.find? (·.handle == handle)

def updateNode (c : Contents) (handle : Nat) (f : Node → Node) : Contents :=
  { c with nodes := Keyed.update c.nodes handle f }

/-- Puts a node at a place, or last where there are fewer. -/
def insertNode (c : Contents) (index handle : Nat) (n : Node) : Contents :=
  let others := Keyed.remove c.nodes handle
  { c with nodes := others.insertIdx (min index others.length) (handle, n) }

def removeNode (c : Contents) (handle : Nat) : Contents :=
  { c with nodes := Keyed.remove c.nodes handle }

def insertWire (c : Contents) (index : Nat) (w : Wire) : Contents :=
  { c with wires := c.wires.insertIdx (min index c.wires.length) w }

def removeWire (c : Contents) (handle : Nat) : Contents :=
  { c with wires := c.wires.filter (·.handle != handle) }

def writeToken (handle : Nat) (token : String) : List Wire → List Wire
  | [] => []
  | w :: rest =>
    if w.handle = handle then { w with token := token } :: rest
    else w :: writeToken handle token rest

def setToken (c : Contents) (handle : Nat) (token : String) : Contents :=
  { c with wires := writeToken handle token c.wires }

def highest? (c : Contents) : Option Nat :=
  (Keyed.keys c.nodes ++ c.wires.map (·.handle)).max?

def listing (c : Contents) : Listing where
  nodes := (Keyed.keys c.nodes).zipIdx.map fun (h, i) => ⟨h, i⟩
  wires := c.wires.map fun w => ⟨w.handle, w.ends⟩
  info h := (c.node? h).map Node.info
  token h := (c.wire? h).map Wire.token

end Contents

end Patchbay
