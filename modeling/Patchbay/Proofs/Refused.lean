import Patchbay.Proofs.InPlace
import Patchbay.Proofs.Misfit
import Patchbay.Proofs.Undo

/-!
# Calls that are refused

A call that a patch refuses leaves it exactly as it was, and it is refused just when it names
something that is not there or asks for a wire that cannot be.
-/

namespace Patchbay

open Keyed (keys)

theorem Contents.node?_eq_none {c : Contents} {h : Nat} : c.node? h = none ↔ h ∉ keys c.nodes :=
  Keyed.get?_eq_none_iff

theorem Contents.hasNode_eq_false {c : Contents} {h : Nat} :
    c.hasNode h = false ↔ h ∉ keys c.nodes := by
  rw [hasNode, Keyed.has, Option.isSome_eq_false_iff, Option.isNone_iff_eq_none,
    Keyed.get?_eq_none_iff]

namespace Patch

variable {p : Patch} {e : Ends} {h : Nat} {fault : EditError}

theorem setBounds_error_iff {bounds : Rect} :
    p.setBounds h bounds = .error fault ↔ h ∉ keys p.nodes ∧ fault = .unknownNode h := by
  rw [← Contents.node?_eq_none]
  cases there : p.node? h with
  | none => simp [setBounds, there, eq_comm]
  | some n => by_cases same : n.bounds = bounds <;> simp [setBounds, there, same]

theorem moveNode_error_iff {delta : Point} :
    p.moveNode h delta = .error fault ↔ h ∉ keys p.nodes ∧ fault = .unknownNode h := by
  cases there : p.node? h with
  | none => simp [moveNode, there, ← Contents.node?_eq_none, eq_comm]
  | some n => simpa only [moveNode, there] using setBounds_error_iff

theorem moveNodeTo_error_iff {position : Point} :
    p.moveNodeTo h position = .error fault ↔ h ∉ keys p.nodes ∧ fault = .unknownNode h := by
  cases there : p.node? h with
  | none => simp [moveNodeTo, there, ← Contents.node?_eq_none, eq_comm]
  | some n => simpa only [moveNodeTo, there] using setBounds_error_iff

theorem setToken_error_iff {token : String} :
    p.setToken h token = .error fault ↔
      (∀ w ∈ p.wires, w.handle ≠ h) ∧ fault = .unknownWire h := by
  have absent : p.wire? h = none ↔ ∀ w ∈ p.wires, w.handle ≠ h := by
    simp [Contents.wire?, List.find?_eq_none]
  rw [← absent]
  cases there : p.wire? h with
  | none => simp [setToken, there, eq_comm]
  | some w => by_cases same : w.token = token <;> simp [setToken, there, same]

theorem disconnect_error_iff {token : String} :
    p.disconnect e token = .error fault ↔ (∀ w ∈ p.wires, w.ends ≠ e) ∧ fault = .noWire e := by
  have absent : p.wires.findIdx? (·.ends == e) = none ↔ ∀ w ∈ p.wires, w.ends ≠ e := by
    simp [List.findIdx?_eq_none_iff]
  rw [← absent]
  cases index : p.wires.findIdx? (·.ends == e) with
  | none => simp [disconnect, index, eq_comm]
  | some i =>
    obtain ⟨inside, found⟩ := find?_of_findIdx? index
    simp [disconnect, index, found]

theorem removeNodes_error_iff {hs : List Nat} :
    p.removeNodes hs = .error fault ↔
      ∃ missing, (hs.find? fun h => !p.hasNode h) = some missing ∧ fault = .unknownNode missing := by
  cases missing : hs.find? fun h => !p.hasNode h with
  | none => simp [removeNodes, missing]
  | some h => simp [removeNodes, missing, eq_comm]

theorem insertWire_error_iff :
    (p.insertWire e).map (·.2) = .error fault ↔ p.connectionFault e = some fault := by
  cases found : p.connectionFault e <;> simp [insertWire, found, Except.map]

theorem connect_error_iff :
    (p.connect e).map (·.2) = .error fault ↔ p.connectionFault e = some fault := by
  cases found : p.connectionFault e <;> simp [connect, insertWire, found, Except.map]

namespace Request

def nodes : Request → List Nat
  | edit (.moveNode h _) => [h]
  | edit (.moveNodeTo h _) => [h]
  | edit (.setBounds h _) => [h]
  | edit (.removeNodes hs) => hs
  | _ => []

def joins? : Request → Option Ends
  | edit (.connect e) => some e
  | insertWire e => some e
  | _ => none

/-- What is wrong with a call, and the error that tells so. -/
inductive Fault (p : Patch) : Request → EditError → Prop
  | node {r : Request} {h : Nat} (named : h ∈ r.nodes) (missing : h ∉ keys p.nodes) :
      Fault p r (.unknownNode h)
  | wire {h : Nat} {token : String} (missing : ∀ w ∈ p.wires, w.handle ≠ h) :
      Fault p (edit (.setToken h token)) (.unknownWire h)
  | ends {e : Ends} {token : Option String} (missing : ∀ w ∈ p.wires, w.ends ≠ e) :
      Fault p (edit (.disconnect e token)) (.noWire e)
  | misfit {r : Request} {e : Ends} {fault : EditError} (joins : r.joins? = some e)
      (misfit : p.Misfit e fault) : Fault p r fault

theorem fault_of_error {r : Request} (refused : r.run p = .error fault) : r.Fault p fault := by
  cases r with
  | insertWire e =>
    exact .misfit rfl (misfit_of_connectionFault (insertWire_error_iff.1 refused))
  | edit o =>
    cases o with
    | createNode text position => exact absurd refused nofun
    | moveNode h delta =>
      obtain ⟨missing, rfl⟩ := moveNode_error_iff.1 refused
      exact .node (List.mem_singleton_self h) missing
    | moveNodeTo h position =>
      obtain ⟨missing, rfl⟩ := moveNodeTo_error_iff.1 refused
      exact .node (List.mem_singleton_self h) missing
    | setBounds h bounds =>
      obtain ⟨missing, rfl⟩ := setBounds_error_iff.1 refused
      exact .node (List.mem_singleton_self h) missing
    | removeNodes hs =>
      obtain ⟨h, found, rfl⟩ := removeNodes_error_iff.1 refused
      have missing : p.hasNode h = false := by simpa using List.find?_some found
      exact .node (List.mem_of_find?_eq_some found) (Contents.hasNode_eq_false.1 missing)
    | connect e => exact .misfit rfl (misfit_of_connectionFault (connect_error_iff.1 refused))
    | disconnect e token =>
      obtain ⟨missing, rfl⟩ := disconnect_error_iff.1 refused
      exact .ends missing
    | setToken h token =>
      obtain ⟨missing, rfl⟩ := setToken_error_iff.1 refused
      exact .wire missing

theorem refused_of_fault {r : Request} (wrong : r.Fault p fault) :
    ∃ fault', r.run p = .error fault' := by
  cases wrong with
  | @node _ h named missing =>
    cases r with
    | insertWire e => exact absurd named List.not_mem_nil
    | edit o =>
      cases o with
      | moveNode k delta =>
        obtain rfl := List.mem_singleton.1 named
        exact ⟨_, moveNode_error_iff.2 ⟨missing, rfl⟩⟩
      | moveNodeTo k position =>
        obtain rfl := List.mem_singleton.1 named
        exact ⟨_, moveNodeTo_error_iff.2 ⟨missing, rfl⟩⟩
      | setBounds k bounds =>
        obtain rfl := List.mem_singleton.1 named
        exact ⟨_, setBounds_error_iff.2 ⟨missing, rfl⟩⟩
      | removeNodes hs =>
        have absent : (!p.hasNode h) = true := by simpa using Contents.hasNode_eq_false.2 missing
        obtain ⟨k, found⟩ : ∃ k, (hs.find? fun h => !p.hasNode h) = some k :=
          Option.isSome_iff_exists.1 (List.find?_isSome.2 ⟨h, named, absent⟩)
        exact ⟨_, removeNodes_error_iff.2 ⟨k, found, rfl⟩⟩
      | _ => exact absurd named List.not_mem_nil
  | wire missing => exact ⟨_, setToken_error_iff.2 ⟨missing, rfl⟩⟩
  | ends missing => exact ⟨_, disconnect_error_iff.2 ⟨missing, rfl⟩⟩
  | @misfit _ e _ joins misfit =>
    obtain ⟨fault, found⟩ := Option.ne_none_iff_exists'.1 (connectionFault_of_misfit misfit)
    cases r with
    | insertWire e' =>
      obtain rfl := Option.some.inj joins
      exact ⟨fault, insertWire_error_iff.2 found⟩
    | edit o =>
      cases o with
      | connect e' =>
        obtain rfl := Option.some.inj joins
        exact ⟨fault, connect_error_iff.2 found⟩
      | _ => exact absurd joins nofun

end Request

/-- A call on any patch, whatever the patch holds, whatever its history and its open sequences.
If the call gives up, the patch is as it was before, however far the statements of the call had
come. It gives up just if a node or a wire that it names is missing, a jack is out of range, a
signal would enter a control inlet, or the same two jacks are joined already; and the error tells
one of those that are the case. The statements and the definition of the call agree. -/
theorem refused_calls (r : Request) (p : Patch) :
    (∀ fault q, r.program.apply p = (.error fault, q) → q = p ∧ r.Fault p fault) ∧
    ((∃ fault q, r.program.apply p = (.error fault, q)) ↔ ∃ fault, r.Fault p fault) ∧
    (∀ fault, r.run p = .error fault ↔ r.program.apply p = (.error fault, p)) ∧
    ∀ q, r.run p = .ok q ↔ r.program.apply p = (.ok (), q) := by
  rw [r.apply_program]
  cases made : r.run p with
  | ok q =>
    have right (fault : EditError) : ¬r.Fault p fault := fun wrong => by
      obtain ⟨fault', refused⟩ := Request.refused_of_fault wrong
      exact absurd (made.symm.trans refused) nofun
    simp [Edit.ended, Except.map, right]
  | error fault =>
    have wrong := Request.fault_of_error made
    refine ⟨?_, ?_, ?_, ?_⟩
    · rintro fault' q ended
      obtain ⟨rfl, rfl⟩ : fault = fault' ∧ p = q := by simpa [Edit.ended, Except.map] using ended
      exact ⟨rfl, wrong⟩
    · exact ⟨fun _ => ⟨fault, wrong⟩, fun _ => ⟨fault, p, rfl⟩⟩
    · simp [Edit.ended, Except.map]
    · simp [Edit.ended, Except.map]

/-- One missing node among others, while a sequence is open: none of them is taken out. -/
theorem refused_calls_removeNodes :
    (Request.edit (.removeNodes [1, 9, 1])).program.apply (joined.openSequence "Cut")
        = (.error (.unknownNode 9), joined.openSequence "Cut") ∧
      (Request.edit (.removeNodes [1, 9, 1])).Fault (joined.openSequence "Cut")
        (.unknownNode 9) := by
  obtain ⟨untouched, -, agree, -⟩ :=
    refused_calls (.edit (.removeNodes [1, 9, 1])) (joined.openSequence "Cut")
  have refused := (agree (.unknownNode 9)).1 (by rfl)
  exact ⟨refused, (untouched _ _ refused).2⟩

end Patch

end Patchbay
