import Patchbay.Patch.History

/-!
Patches as documents: contents, the next free handle, and a history of what was recorded.
-/

namespace Patchbay

structure Patch extends Contents where
  /-- The next handle; handles start at one. -/
  next : Nat := 0
  history : History := {}
  /-- How often pending changes were asked for. -/
  deliveries : Nat := 0
  deriving DecidableEq, Repr, Inhabited

namespace Patch

def record (p : Patch) (changes : List Change) : Patch :=
  { p with history := p.history.record changes }

def freshHandle (p : Patch) : Nat := max p.next 1

def insertNode (p : Patch) (n : Node) : Nat × Patch :=
  (p.freshHandle,
    { p with nodes := p.nodes ++ [(p.freshHandle, n)], next := p.freshHandle + 1 })

def connectionFault (p : Patch) (e : Ends) : Option EditError :=
  match p.node? e.outletOwner, p.node? e.inletOwner with
  | none, _ => some (.unknownNode e.outletOwner)
  | _, none => some (.unknownNode e.inletOwner)
  | some source, some sink =>
    match source.outlets[e.outlet]?, sink.inlets[e.inlet]? with
    | none, _ => some (.noJack e.outletOwner .outlet e.outlet)
    | _, none => some (.noJack e.inletOwner .inlet e.inlet)
    | some signalOut, some signalIn =>
      if signalOut && !signalIn then some (.mismatch e .signalIntoControl)
      else if p.wires.any (·.ends == e) then some (.mismatch e .alreadyConnected)
      else none

def insertWire (p : Patch) (e : Ends) : Except EditError (Nat × Patch) :=
  match p.connectionFault e with
  | some fault => .error fault
  | none =>
    .ok (p.freshHandle,
      { p with wires := p.wires ++ [⟨p.freshHandle, e, ""⟩], next := p.freshHandle + 1 })

/-- Gives a node other jacks. Wires to jacks that it no longer has go; nothing is recorded. -/
def setJacks (p : Patch) (handle : Nat) (inlets outlets : List Bool) : Patch :=
  if p.hasNode handle then
    let c := p.updateNode handle fun n => { n with inlets := inlets, outlets := outlets }
    { p with
      nodes := c.nodes
      wires := p.wires.filter fun w =>
        !((w.ends.inletOwner == handle && decide (inlets.length ≤ w.ends.inlet))
          || (w.ends.outletOwner == handle && decide (outlets.length ≤ w.ends.outlet))) }
  else p

/-- Exchanges the places of two nodes; nothing is recorded. -/
def swap (p : Patch) (i j : Nat) : Patch :=
  match p.nodes[i]?, p.nodes[j]? with
  | some a, some b => { p with nodes := (p.nodes.set i b).set j a }
  | _, _ => p

def deliver (p : Patch) : Patch := { p with deliveries := p.deliveries + 1 }

def setToken (p : Patch) (handle : Nat) (token : String) : Except EditError Patch :=
  match p.wire? handle with
  | none => .error (.unknownWire handle)
  | some w =>
    if w.token = token then .ok p
    else
      .ok ({ p with toContents := p.toContents.setToken handle token }.record
        [.setToken handle w.token token])

/-- The size of a new node follows from the length of its text. -/
def newNode (text : String) (position : Point) : Node :=
  ⟨text, ⟨position.x, position.y, max (text.length * 7 + 10 : Nat) 30, 20⟩, [false], [false]⟩

def createNode (p : Patch) (text : String) (position : Point) : Nat × Patch :=
  let n := newNode text position
  let (handle, added) := p.insertNode n
  (handle, added.record [.addNode p.nodes.length handle n])

def setBounds (p : Patch) (handle : Nat) (bounds : Rect) : Except EditError Patch :=
  match p.node? handle with
  | none => .error (.unknownNode handle)
  | some n =>
    if n.bounds = bounds then .ok p
    else
      .ok ({ p with
          toContents := p.updateNode handle fun n => { n with bounds := bounds } }.record
        [.setBounds handle n.bounds bounds])

def moveNode (p : Patch) (handle : Nat) (delta : Point) : Except EditError Patch :=
  match p.node? handle with
  | none => .error (.unknownNode handle)
  | some n => p.setBounds handle (n.bounds.shifted delta)

def moveNodeTo (p : Patch) (handle : Nat) (position : Point) : Except EditError Patch :=
  match p.node? handle with
  | none => .error (.unknownNode handle)
  | some n => p.setBounds handle (n.bounds.withPosition position)

/-- Takes out the wires at some nodes. Each change names the place that its wire had when those
before it were gone, which is the number of wires kept so far. -/
def detach (nodes : List Nat) : (kept : Nat) → List Wire → List Wire × List Change
  | _, [] => ([], [])
  | kept, w :: rest =>
    if nodes.contains w.ends.inletOwner || nodes.contains w.ends.outletOwner then
      let (stay, changes) := detach nodes kept rest
      (stay, .removeWire kept w :: changes)
    else
      let (stay, changes) := detach nodes (kept + 1) rest
      (w :: stay, changes)

def takeOut : (handles : List Nat) → Keyed Node → Keyed Node × List Change
  | [], nodes => (nodes, [])
  | h :: rest, nodes =>
    match nodes.findIdx? (·.1 == h), Keyed.get? nodes h with
    | some i, some n =>
      let (stay, changes) := takeOut rest (nodes.eraseIdx i)
      (stay, .removeNode i h n :: changes)
    | _, _ => takeOut rest nodes

def removeNodes (p : Patch) (handles : List Nat) : Except EditError Patch :=
  match handles.find? fun h => !p.hasNode h with
  | some missing => .error (.unknownNode missing)
  | none =>
    let (wires, unwired) := detach handles 0 p.wires
    let (nodes, removed) := takeOut handles p.nodes
    .ok ({ p with wires := wires, nodes := nodes }.record (unwired ++ removed))

def connect (p : Patch) (e : Ends) : Except EditError (Nat × Patch) :=
  match p.insertWire e with
  | .error fault => .error fault
  | .ok (handle, added) =>
    .ok (handle, added.record [.addWire p.wires.length ⟨handle, e, ""⟩])

/-- Removes the first wire between two ends. Undo brings it back with the given token. -/
def disconnect (p : Patch) (e : Ends) (token : String) : Except EditError Patch :=
  match p.wires.findIdx? (·.ends == e), p.wires.find? (·.ends == e) with
  | some i, some w =>
    .ok ({ p with wires := p.wires.eraseIdx i }.record [.removeWire i { w with token := token }])
  | _, _ => .error (.noWire e)

def openSequence (p : Patch) (label : String) : Patch :=
  { p with history := p.history.openSequence label }

def closeSequence (p : Patch) : Patch :=
  { p with history := p.history.closeSequence }

def undo? (p : Patch) : Option Patch :=
  match p.history.done with
  | [] => none
  | s :: rest =>
    some { p with
      toContents := s.revert p.toContents
      history := { p.history with done := rest, undone := s.inverse :: p.history.undone } }

def redo? (p : Patch) : Option Patch :=
  match p.history.undone with
  | [] => none
  | s :: rest =>
    some { p with
      toContents := s.revert p.toContents
      history := { p.history with undone := rest, done := s.inverse :: p.history.done } }

instance : Document Patch where
  deliver := deliver
  listing p := p.toContents.listing
  setToken := setToken
  createNode p text position := .ok (p.createNode text position)
  moveNode := moveNode
  moveNodeTo := moveNodeTo
  setBounds := setBounds
  removeNodes := removeNodes
  connect := connect
  disconnect := disconnect
  openSequence := openSequence
  closeSequence := closeSequence

end Patch

end Patchbay
