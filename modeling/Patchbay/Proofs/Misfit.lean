import Patchbay.Patch.Edit
import Patchbay.Proofs.Keyed

/-!
# Ends that cannot be joined

What is checked before a wire is made finds a fault exactly when there is one.
-/

namespace Patchbay.Patch

open Keyed (keys)

variable {p : Patch} {e : Ends} {fault : EditError}

/-- What keeps two ends from being joined, and the error that tells so. -/
inductive Misfit (p : Patch) (e : Ends) : EditError → Prop
  | outletOwner (missing : e.outletOwner ∉ keys p.nodes) : Misfit p e (.unknownNode e.outletOwner)
  | inletOwner (missing : e.inletOwner ∉ keys p.nodes) : Misfit p e (.unknownNode e.inletOwner)
  | outlet {n : Node} (owner : p.node? e.outletOwner = some n)
      (past : n.outlets.length ≤ e.outlet) : Misfit p e (.noJack e.outletOwner .outlet e.outlet)
  | inlet {n : Node} (owner : p.node? e.inletOwner = some n)
      (past : n.inlets.length ≤ e.inlet) : Misfit p e (.noJack e.inletOwner .inlet e.inlet)
  | signal {n m : Node} (source : p.node? e.outletOwner = some n)
      (sink : p.node? e.inletOwner = some m) (sends : n.outlets[e.outlet]? = some true)
      (control : m.inlets[e.inlet]? = some false) : Misfit p e (.mismatch e .signalIntoControl)
  | taken {w : Wire} (there : w ∈ p.wires) (same : w.ends = e) :
      Misfit p e (.mismatch e .alreadyConnected)

theorem misfit_of_connectionFault (found : p.connectionFault e = some fault) :
    p.Misfit e fault := by
  unfold connectionFault at found
  split at found
  case h_1 gone =>
    obtain rfl := Option.some.inj found
    exact .outletOwner (Keyed.get?_eq_none_iff.1 gone)
  case h_2 gone _ =>
    obtain rfl := Option.some.inj found
    exact .inletOwner (Keyed.get?_eq_none_iff.1 gone)
  case h_3 source sink hsource hsink =>
    split at found
    case h_1 past =>
      obtain rfl := Option.some.inj found
      exact .outlet hsource (List.getElem?_eq_none_iff.1 past)
    case h_2 past _ =>
      obtain rfl := Option.some.inj found
      exact .inlet hsink (List.getElem?_eq_none_iff.1 past)
    case h_3 signalOut signalIn hout hin =>
      split at found
      case isTrue clash =>
        obtain rfl := Option.some.inj found
        simp only [Bool.and_eq_true, Bool.not_eq_true'] at clash
        exact .signal hsource hsink (clash.1 ▸ hout) (clash.2 ▸ hin)
      case isFalse =>
        split at found
        case isTrue taken =>
          obtain rfl := Option.some.inj found
          obtain ⟨w, there, same⟩ := List.any_eq_true.1 taken
          exact .taken there (eq_of_beq same)
        case isFalse => exact absurd found (by simp)

theorem fits_of_connectionFault (none : p.connectionFault e = none) :
    (∃ n m, p.node? e.outletOwner = some n ∧ p.node? e.inletOwner = some m ∧
      e.outlet < n.outlets.length ∧ e.inlet < m.inlets.length ∧
      ¬(n.outlets[e.outlet]? = some true ∧ m.inlets[e.inlet]? = some false)) ∧
    ∀ w ∈ p.wires, w.ends ≠ e := by
  unfold connectionFault at none
  split at none
  case h_1 => exact absurd none (by simp)
  case h_2 => exact absurd none (by simp)
  case h_3 n m source sink =>
    split at none
    case h_1 => exact absurd none (by simp)
    case h_2 => exact absurd none (by simp)
    case h_3 signalOut signalIn hout hin =>
      split at none
      case isTrue => exact absurd none (by simp)
      case isFalse fits =>
        split at none
        case isTrue => exact absurd none (by simp)
        case isFalse free =>
          obtain ⟨outside, -⟩ := List.getElem?_eq_some_iff.1 hout
          obtain ⟨inside, -⟩ := List.getElem?_eq_some_iff.1 hin
          refine ⟨⟨n, m, source, sink, outside, inside, ?_⟩, fun w there same => ?_⟩
          · rw [hout, hin, Option.some.injEq, Option.some.injEq]
            simpa using fits
          · exact free (List.any_eq_true.2 ⟨w, there, beq_iff_eq.2 same⟩)

theorem connectionFault_of_misfit (misfit : p.Misfit e fault) : p.connectionFault e ≠ none := by
  intro none
  obtain ⟨⟨n, m, source, sink, outside, inside, fits⟩, free⟩ := fits_of_connectionFault none
  cases misfit with
  | outletOwner missing => exact missing (Keyed.mem_keys_of_mem (Keyed.mem_of_get? source))
  | inletOwner missing => exact missing (Keyed.mem_keys_of_mem (Keyed.mem_of_get? sink))
  | outlet owner past =>
    obtain rfl := Option.some.inj (source.symm.trans owner)
    exact absurd outside (Nat.not_lt_of_le past)
  | inlet owner past =>
    obtain rfl := Option.some.inj (sink.symm.trans owner)
    exact absurd inside (Nat.not_lt_of_le past)
  | signal source' sink' sends control =>
    obtain rfl := Option.some.inj (source.symm.trans source')
    obtain rfl := Option.some.inj (sink.symm.trans sink')
    exact fits ⟨sends, control⟩
  | taken there same => exact free _ there same

end Patchbay.Patch
