import Patchbay.Proofs.Operation

/-!
# Calls that write a patch in place

The calls of a patch statement by statement: they look things up, write, note what they wrote,
and may give up at any statement, where all that was written so far stays written. Each of them
comes to what its definition as a function says, and a call that gives up has written nothing.
-/

namespace Patchbay

namespace Patch

/-- Statements that read and write a patch and may give up. -/
abbrev Edit := ExceptT EditError (StateM Patch)

namespace Edit

variable {α β : Type}

/-- The answer of some statements, and the patch as they leave it. -/
def apply (prog : Edit α) (p : Patch) : Except EditError α × Patch := (ExceptT.run prog).run p

@[simp] theorem apply_pure (a : α) (p : Patch) : apply (pure a) p = (.ok a, p) := rfl

@[simp] theorem apply_throw (fault : EditError) (p : Patch) :
    apply (throw fault : Edit α) p = (.error fault, p) := rfl

@[simp] theorem apply_get (p : Patch) : apply (get : Edit Patch) p = (.ok p, p) := rfl

@[simp] theorem apply_modify (f : Patch → Patch) (p : Patch) :
    apply (modify f : Edit Unit) p = (.ok (), f p) := rfl

@[simp] theorem apply_bind (prog : Edit α) (next : α → Edit β) (p : Patch) :
    apply (prog >>= next) p = match apply prog p with
      | (.ok a, q) => apply (next a) q
      | (.error fault, q) => (.error fault, q) := by
  unfold apply ExceptT.run StateT.run
  simp only [bind, ExceptT.bind, ExceptT.mk, StateT.bind, ExceptT.bindCont]
  cases prog p with
  | mk answer q => cases answer <;> rfl

@[simp] theorem apply_map (f : α → β) (prog : Edit α) (p : Patch) :
    apply (f <$> prog) p = match apply prog p with
      | (.ok a, q) => (.ok (f a), q)
      | (.error fault, q) => (.error fault, q) := by
  rw [← bind_pure_comp, apply_bind]
  rfl

def orFault (fault : EditError) : Option α → Edit α
  | some a => pure a
  | none => throw fault

@[simp] theorem apply_orFault_some (fault : EditError) (a : α) (p : Patch) :
    apply (orFault fault (some a)) p = (.ok a, p) := rfl

@[simp] theorem apply_orFault_none (fault : EditError) (p : Patch) :
    apply (orFault fault (none : Option α)) p = (.error fault, p) := rfl

def note (cs : List Change) : Edit Unit := modify fun p => p.record cs

@[simp] theorem apply_note (cs : List Change) (p : Patch) :
    apply (note cs) p = (.ok (), p.record cs) := rfl

def allocate : Edit Nat := do
  modify fun p => { p with next := max p.next 1 }
  let handle := (← get).next
  modify fun p => { p with next := p.next + 1 }
  return handle

@[simp] theorem apply_allocate (p : Patch) :
    apply allocate p = (.ok p.freshHandle, { p with next := p.freshHandle + 1 }) := by
  simp [allocate, freshHandle]

def createNode (text : String) (position : Point) : Edit Nat := do
  let handle ← allocate
  let n := newNode text position
  let index := (← get).nodes.length
  modify fun p => { p with nodes := p.nodes ++ [(handle, n)] }
  note [.addNode index handle n]
  return handle

def writeBounds (handle : Nat) (bounds : Rect) : Edit Unit := do
  let n ← orFault (.unknownNode handle) ((← get).node? handle)
  if n.bounds = bounds then return
  modify fun p =>
    { p with toContents := p.updateNode handle fun n => { n with bounds := bounds } }
  note [.setBounds handle n.bounds bounds]

def moveNode (handle : Nat) (delta : Point) : Edit Unit := do
  let n ← orFault (.unknownNode handle) ((← get).node? handle)
  writeBounds handle (n.bounds.shifted delta)

def moveNodeTo (handle : Nat) (position : Point) : Edit Unit := do
  let n ← orFault (.unknownNode handle) ((← get).node? handle)
  writeBounds handle (n.bounds.withPosition position)

def setToken (handle : Nat) (token : String) : Edit Unit := do
  let w ← orFault (.unknownWire handle) ((← get).wire? handle)
  if w.token = token then return
  modify fun p => { p with toContents := p.toContents.setToken handle token }
  note [.setToken handle w.token token]

def validate (e : Ends) : Edit Unit := do
  let source ← orFault (.unknownNode e.outletOwner) ((← get).node? e.outletOwner)
  let sink ← orFault (.unknownNode e.inletOwner) ((← get).node? e.inletOwner)
  let signalOut ← orFault (.noJack e.outletOwner .outlet e.outlet) source.outlets[e.outlet]?
  let signalIn ← orFault (.noJack e.inletOwner .inlet e.inlet) sink.inlets[e.inlet]?
  if signalOut && !signalIn then throw (.mismatch e .signalIntoControl)
  if (← get).wires.any (·.ends == e) then throw (.mismatch e .alreadyConnected)

def insertWire (e : Ends) : Edit Nat := do
  validate e
  let handle ← allocate
  modify fun p => { p with wires := p.wires ++ [⟨handle, e, ""⟩] }
  return handle

def connect (e : Ends) : Edit Nat := do
  let handle ← insertWire e
  let index := (← get).wires.length - 1
  let wire := (← get).wires[index]!
  note [.addWire index wire]
  return handle

def disconnect (e : Ends) (token : String) : Edit Unit := do
  let index ← orFault (.noWire e) ((← get).wires.findIdx? (·.ends == e))
  let wire := (← get).wires[index]!
  modify fun p => { p with wires := p.wires.eraseIdx index }
  note [.removeWire index { wire with token := token }]

/-- Goes through the wires from an index on. Each round either takes a wire out or passes it, so
that as many rounds as there are wires left are enough. -/
def detachLoop (hs : List Nat) : (rounds index : Nat) → List Change → Edit (List Change)
  | 0, _, noted => return noted
  | rounds + 1, index, noted => do
    match (← get).wires[index]? with
    | none => return noted
    | some w =>
      if hs.contains w.ends.inletOwner || hs.contains w.ends.outletOwner then
        modify fun p => { p with wires := p.wires.eraseIdx index }
        detachLoop hs rounds index (noted ++ [.removeWire index w])
      else detachLoop hs rounds (index + 1) noted

def takeOutLoop : List Nat → List Change → Edit (List Change)
  | [], noted => return noted
  | h :: rest, noted => do
    match (← get).nodes.findIdx? (·.1 == h), (← get).node? h with
    | some i, some n =>
      modify fun p => { p with nodes := p.nodes.eraseIdx i }
      takeOutLoop rest (noted ++ [.removeNode i h n])
    | _, _ => takeOutLoop rest noted

def removeNodes (handles : List Nat) : Edit Unit := do
  let p ← get
  if let some missing := handles.find? fun h => !p.hasNode h then throw (.unknownNode missing)
  let noted ← detachLoop handles (← get).wires.length 0 []
  let noted ← takeOutLoop handles noted
  note noted

/-- How a call ends that leaves the patch as it was when it gives up. -/
def ended (p : Patch) : Except EditError (α × Patch) → Except EditError α × Patch
  | .ok (a, q) => (.ok a, q)
  | .error fault => (.error fault, p)

theorem apply_createNode (text : String) (position : Point) (p : Patch) :
    apply (createNode text position) p = ended p (.ok (p.createNode text position)) := by
  simp [createNode, Patch.createNode, Patch.insertNode, ended, freshHandle]

theorem apply_writeBounds (h : Nat) (bounds : Rect) (p : Patch) :
    apply (writeBounds h bounds) p = ended p ((p.setBounds h bounds).map ((), ·)) := by
  cases there : p.node? h with
  | none => simp [writeBounds, Patch.setBounds, there, ended, Except.map]
  | some n =>
    by_cases same : n.bounds = bounds <;>
      simp [writeBounds, Patch.setBounds, there, same, ended, Except.map]

theorem apply_moveNode (h : Nat) (delta : Point) (p : Patch) :
    apply (moveNode h delta) p = ended p ((p.moveNode h delta).map ((), ·)) := by
  cases there : p.node? h with
  | none => simp [moveNode, Patch.moveNode, there, ended, Except.map]
  | some n => simp [moveNode, Patch.moveNode, there, apply_writeBounds]

theorem apply_moveNodeTo (h : Nat) (position : Point) (p : Patch) :
    apply (moveNodeTo h position) p = ended p ((p.moveNodeTo h position).map ((), ·)) := by
  cases there : p.node? h with
  | none => simp [moveNodeTo, Patch.moveNodeTo, there, ended, Except.map]
  | some n => simp [moveNodeTo, Patch.moveNodeTo, there, apply_writeBounds]

theorem apply_setToken (h : Nat) (token : String) (p : Patch) :
    apply (setToken h token) p = ended p ((p.setToken h token).map ((), ·)) := by
  cases there : p.wire? h with
  | none => simp [setToken, Patch.setToken, there, ended, Except.map]
  | some w =>
    by_cases same : w.token = token <;>
      simp [setToken, Patch.setToken, there, same, ended, Except.map]

theorem apply_validate (e : Ends) (p : Patch) :
    apply (validate e) p = match p.connectionFault e with
      | some fault => (.error fault, p)
      | none => (.ok (), p) := by
  cases source : p.node? e.outletOwner with
  | none => simp [validate, connectionFault, source]
  | some a =>
    cases sink : p.node? e.inletOwner with
    | none => simp [validate, connectionFault, source, sink]
    | some b =>
      cases outlet : a.outlets[e.outlet]? with
      | none => simp [validate, connectionFault, source, sink, outlet]
      | some signalOut =>
        cases inlet : b.inlets[e.inlet]? with
        | none => simp [validate, connectionFault, source, sink, outlet, inlet]
        | some signalIn =>
          simp only [validate, connectionFault, source, sink, outlet, inlet, apply_bind, apply_get,
            apply_orFault_some]
          split
          · rfl
          · simp only [apply_bind, apply_get]
            split <;> rfl

theorem apply_insertWire (e : Ends) (p : Patch) :
    apply (insertWire e) p = ended p (p.insertWire e) := by
  cases fault : p.connectionFault e <;>
    simp [insertWire, Patch.insertWire, apply_validate, fault, ended]

theorem apply_connect (e : Ends) (p : Patch) :
    apply (connect e) p = ended p (p.connect e) := by
  cases fault : p.connectionFault e <;>
    simp [connect, Patch.connect, Patch.insertWire, apply_insertWire, fault, ended]

theorem apply_disconnect (e : Ends) (token : String) (p : Patch) :
    apply (disconnect e token) p = ended p ((p.disconnect e token).map ((), ·)) := by
  cases index : p.wires.findIdx? (·.ends == e) with
  | none => simp [disconnect, Patch.disconnect, index, ended, Except.map]
  | some i =>
    obtain ⟨inside, found⟩ := find?_of_findIdx? index
    simp [disconnect, Patch.disconnect, index, found, inside, ended, Except.map]

/-- The wires before the index are those that were passed, so their number is the index that the
next change names. -/
theorem apply_detachLoop (hs : List Nat) (passed rest : List Wire) (noted : List Change)
    (p : Patch) (now : p.wires = passed ++ rest) :
    apply (detachLoop hs rest.length passed.length noted) p =
      (.ok (noted ++ (detach hs passed.length rest).2),
        { p with wires := passed ++ (detach hs passed.length rest).1 }) := by
  induction rest generalizing passed noted p with
  | nil => simp [detachLoop, detach, ← now]
  | cons w rest ih =>
    have there : p.wires[passed.length]? = some w := by simp [now]
    by_cases hit : hs.contains w.ends.inletOwner || hs.contains w.ends.outletOwner
    · have gone : p.wires.eraseIdx passed.length = passed ++ rest := by
        rw [now, List.eraseIdx_append_of_length_le (Nat.le_refl _), Nat.sub_self,
          List.eraseIdx_zero, List.tail_cons]
      have next := ih passed (noted ++ [.removeWire passed.length w])
        { p with wires := passed ++ rest } rfl
      simp only [List.length_cons, detachLoop, apply_bind, apply_get, there, hit, if_true,
        apply_modify, gone, next, detach, List.append_assoc, List.singleton_append]
    · have next := ih (passed ++ [w]) noted p (by simp [now])
      rw [List.length_append, List.length_singleton] at next
      simp only [List.append_assoc, List.singleton_append] at next
      simp only [List.length_cons, detachLoop, apply_bind, apply_get, there, hit,
        Bool.false_eq_true, if_false, next, detach]

theorem apply_takeOutLoop (hs : List Nat) (noted : List Change) (p : Patch) :
    apply (takeOutLoop hs noted) p =
      (.ok (noted ++ (takeOut hs p.nodes).2), { p with nodes := (takeOut hs p.nodes).1 }) := by
  induction hs generalizing noted p with
  | nil => simp [takeOutLoop, takeOut]
  | cons h rest ih =>
    cases index : p.nodes.findIdx? (·.1 == h) with
    | none => simp [takeOutLoop, takeOut, index, ih]
    | some i =>
      cases there : Keyed.get? p.nodes h with
      | none => simp [takeOutLoop, takeOut, Contents.node?, index, there, ih]
      | some n => simp [takeOutLoop, takeOut, Contents.node?, index, there, ih]

theorem apply_removeNodes (hs : List Nat) (p : Patch) :
    apply (removeNodes hs) p = ended p ((p.removeNodes hs).map ((), ·)) := by
  cases missing : hs.find? fun h => !p.hasNode h with
  | some h => simp [removeNodes, Patch.removeNodes, missing, ended, Except.map]
  | none =>
    have unwired := apply_detachLoop hs [] p.wires [] p rfl
    simp only [List.length_nil, List.nil_append] at unwired
    simp [removeNodes, Patch.removeNodes, missing, ended, Except.map, unwired, apply_takeOutLoop]

end Edit

/-- A call that may be refused: one that is recorded, or a wire put in by a loader. -/
inductive Request where
  | edit (o : Operation)
  | insertWire (e : Ends)
  deriving DecidableEq, Repr

namespace Request

def run : Request → Patch → Except EditError Patch
  | edit o, p => o.run p
  | insertWire e, p => (p.insertWire e).map (·.2)

/-- The statements of a call, without its answer. -/
def program : Request → Edit Unit
  | edit (.createNode text position) => do let _ ← Edit.createNode text position
  | edit (.moveNode h delta) => Edit.moveNode h delta
  | edit (.moveNodeTo h position) => Edit.moveNodeTo h position
  | edit (.setBounds h bounds) => Edit.writeBounds h bounds
  | edit (.removeNodes hs) => Edit.removeNodes hs
  | edit (.connect e) => do let _ ← Edit.connect e
  | edit (.disconnect e token) => do Edit.disconnect e (token.getD ((← get).heldToken e))
  | edit (.setToken h token) => Edit.setToken h token
  | insertWire e => do let _ ← Edit.insertWire e

theorem apply_program (r : Request) (p : Patch) :
    r.program.apply p = Edit.ended p ((r.run p).map ((), ·)) := by
  cases r with
  | insertWire e =>
    cases made : p.insertWire e <;>
      simp [program, run, Edit.apply_insertWire, made, Edit.ended, Except.map]
  | edit o =>
    cases o with
    | createNode text position =>
      simp [program, run, Operation.run, Edit.apply_createNode, Edit.ended, Except.map]
    | moveNode h delta => exact Edit.apply_moveNode h delta p
    | moveNodeTo h position => exact Edit.apply_moveNodeTo h position p
    | setBounds h bounds => exact Edit.apply_writeBounds h bounds p
    | removeNodes hs => exact Edit.apply_removeNodes hs p
    | connect e =>
      cases made : p.connect e <;>
        simp [program, run, Operation.run, Edit.apply_connect, made, Edit.ended, Except.map]
    | disconnect e token =>
      simp [program, run, Operation.run, Edit.apply_disconnect]
    | setToken h token => exact Edit.apply_setToken h token p

end Request

end Patch

end Patchbay
