import Patchbay.Patch.Edit
import Patchbay.Proofs.Keyed

/-!
# Changes made forward, and trails of them

A recorded change is read here as a step from the contents before it to the contents after it.
A trail is a list of such steps. Reverting a change leads back to the contents before it, up to
the token of a removed wire: the change keeps the token that its caller gave.
-/

namespace Patchbay

open Keyed (keys)

/-- A strict change that removes a wire keeps the token that the wire had. -/
inductive Change.Made (strict : Prop) : Change → Contents → Contents → Prop
  | addNode {a : Contents} {h : Nat} (n : Node) (fresh : h ∉ keys a.nodes) :
      Made strict (.addNode a.nodes.length h n) a { a with nodes := a.nodes ++ [(h, n)] }
  | removeNode {a : Contents} {i h : Nat} {n : Node} (there : a.nodes[i]? = some (h, n)) :
      Made strict (.removeNode i h n) a { a with nodes := a.nodes.eraseIdx i }
  | setBounds {a : Contents} {h : Nat} {n : Node} (new : Rect) (there : a.node? h = some n) :
      Made strict (.setBounds h n.bounds new) a
        (a.updateNode h fun n => { n with bounds := new })
  | addWire {a : Contents} (w : Wire) (fresh : ∀ v ∈ a.wires, v.handle ≠ w.handle) :
      Made strict (.addWire a.wires.length w) a { a with wires := a.wires ++ [w] }
  | removeWire {a : Contents} (i : Nat) (w : Wire) (token : String)
      (there : a.wires[i]? = some w) (kept : strict → token = w.token) :
      Made strict (.removeWire i { w with token := token }) a
        { a with wires := a.wires.eraseIdx i }
  | setToken {a : Contents} {h : Nat} {w : Wire} (new : String) (there : a.wire? h = some w) :
      Made strict (.setToken h w.token new) a (a.setToken h new)

inductive Trail (strict : Prop) : List Change → Contents → Contents → Prop
  | nil {a : Contents} : Trail strict [] a a
  | cons {ch : Change} {cs : List Change} {a b c : Contents} :
      ch.Made strict a b → Trail strict cs b c → Trail strict (ch :: cs) a c

namespace Trail

variable {strict : Prop} {ch : Change} {cs ds : List Change} {a b c : Contents}

theorem eq_of_nil (h : Trail strict [] a b) : a = b := by
  cases h
  rfl

theorem single (h : ch.Made strict a b) : Trail strict [ch] a b := .cons h .nil

theorem append (h₁ : Trail strict cs a b) (h₂ : Trail strict ds b c) :
    Trail strict (cs ++ ds) a c := by
  induction h₁ with
  | nil => exact h₂
  | cons made _ ih => exact .cons made (ih h₂)

theorem split (h : Trail strict (cs ++ ds) a c) :
    ∃ b, Trail strict cs a b ∧ Trail strict ds b c := by
  induction cs generalizing a with
  | nil => exact ⟨a, .nil, h⟩
  | cons ch cs ih =>
    obtain _ | ⟨made, rest⟩ := h
    obtain ⟨b, h₁, h₂⟩ := ih rest
    exact ⟨b, .cons made h₁, h₂⟩

end Trail

def Wire.bare (w : Wire) : Nat × Ends := (w.handle, w.ends)

namespace Contents

/-- Equal but for the tokens of wires. -/
def Alike (a b : Contents) : Prop :=
  a.nodes = b.nodes ∧ a.wires.map Wire.bare = b.wires.map Wire.bare

theorem Alike.refl (a : Contents) : a.Alike a := ⟨rfl, rfl⟩

theorem Alike.trans {a b c : Contents} (h₁ : a.Alike b) (h₂ : b.Alike c) : a.Alike c :=
  ⟨h₁.1.trans h₂.1, h₁.2.trans h₂.2⟩

theorem Alike.length_wires {a b : Contents} (h : a.Alike b) : a.wires.length = b.wires.length := by
  simpa using congrArg List.length h.2

theorem Alike.handles {a b : Contents} (alike : a.Alike b) :
    a.wires.map (·.handle) = b.wires.map (·.handle) := by
  have h := congrArg (List.map Prod.fst) alike.2
  rw [List.map_map, List.map_map] at h
  exact h

theorem writeToken_cons_of_eq {h : Nat} {w : Wire} (hw : w.handle = h) (t : String)
    (ws : List Wire) : writeToken h t (w :: ws) = { w with token := t } :: ws := by
  simp [writeToken, hw]

theorem writeToken_cons_of_ne {h : Nat} {w : Wire} (hw : w.handle ≠ h) (t : String)
    (ws : List Wire) : writeToken h t (w :: ws) = w :: writeToken h t ws := by
  simp [writeToken, hw]

theorem map_bare_writeToken (h : Nat) (t : String) (ws : List Wire) :
    (writeToken h t ws).map Wire.bare = ws.map Wire.bare := by
  induction ws with
  | nil => rfl
  | cons w ws ih => by_cases hw : w.handle = h <;> simp [writeToken, Wire.bare, hw, ih]

theorem writeToken_writeToken (h : Nat) (t u : String) (ws : List Wire) :
    writeToken h u (writeToken h t ws) = writeToken h u ws := by
  induction ws with
  | nil => rfl
  | cons w ws ih => by_cases hw : w.handle = h <;> simp [writeToken, hw, ih]

theorem find?_writeToken (h : Nat) (token : String) (ws : List Wire) :
    (writeToken h token ws).find? (·.handle == h)
      = (ws.find? (·.handle == h)).map fun w => { w with token := token } := by
  induction ws with
  | nil => rfl
  | cons w ws ih =>
    by_cases named : w.handle = h
    · simp [writeToken, named]
    · simp [writeToken, named, ih]

theorem find?_writeToken_of_ne {h k : Nat} (ne : k ≠ h) (token : String) (ws : List Wire) :
    (writeToken h token ws).find? (·.handle == k) = ws.find? (·.handle == k) := by
  induction ws with
  | nil => rfl
  | cons w ws ih =>
    by_cases named : w.handle = h
    · simp [writeToken, named, ne.symm]
    · by_cases sought : w.handle = k
      · simp [writeToken, sought, ne]
      · simp [writeToken, named, sought, ih]

theorem writeToken_of_find? {h : Nat} {w : Wire} {ws : List Wire}
    (there : ws.find? (·.handle == h) = some w) : writeToken h w.token ws = ws := by
  induction ws with
  | nil => rfl
  | cons v ws ih =>
    by_cases hv : v.handle = h
    · obtain rfl : v = w := by simpa [hv] using there
      subst hv
      simp [writeToken]
    · have hv' : (v.handle == h) = false := by simpa using hv
      rw [List.find?_cons, hv'] at there
      simp [writeToken, hv, ih there]

end Contents

namespace Change

open Contents

variable {strict : Prop} {ch : Change} {a b c : Contents}

theorem Made.nodup_keys (made : ch.Made strict a b) (nodup : (keys a.nodes).Nodup) :
    (keys b.nodes).Nodup := by
  cases made with
  | addNode n fresh => exact Keyed.nodup_append nodup fresh
  | removeNode there =>
    rw [Keyed.keys_eraseIdx]
    exact nodup.eraseIdx _
  | setBounds new there => simpa [updateNode] using nodup
  | addWire w fresh => exact nodup
  | removeWire i w token there kept => exact nodup
  | setToken new there => exact nodup

theorem insertNode_eraseIdx {i h : Nat} {n : Node} (nodup : (keys a.nodes).Nodup)
    (there : a.nodes[i]? = some (h, n)) :
    ({ a with nodes := a.nodes.eraseIdx i } : Contents).insertNode i h n = a := by
  obtain ⟨hi, hget⟩ := List.getElem?_eq_some_iff.1 there
  have hgone : h ∉ keys (a.nodes.eraseIdx i) := by
    rw [Keyed.keys_eraseIdx]
    have hi' : i < (keys a.nodes).length := by simpa [keys] using hi
    have hk : (keys a.nodes).get ⟨i, hi'⟩ = h := by simp [keys, hget]
    intro hm
    obtain ⟨j, hj, hji, hjh⟩ := List.mem_eraseIdx_iff_getElem.1 hm
    exact hji (nodup.getElem_inj_iff.1 (hjh.trans hk.symm))
  have hlen : i ≤ (a.nodes.eraseIdx i).length := by
    rw [List.length_eraseIdx_of_lt hi]
    omega
  simp only [insertNode, Keyed.remove_of_not_mem hgone, Nat.min_eq_left hlen]
  rw [← hget, List.insertIdx_eraseIdx_getElem hi]

theorem insertWire_eraseIdx {i : Nat} {w : Wire} (v : Wire) (there : a.wires[i]? = some w) :
    ({ a with wires := a.wires.eraseIdx i } : Contents).insertWire i v
      = { a with wires := a.wires.set i v } := by
  obtain ⟨hi, hget⟩ := List.getElem?_eq_some_iff.1 there
  have hlen : i ≤ (a.wires.eraseIdx i).length := by
    rw [List.length_eraseIdx_of_lt hi]
    omega
  simp only [insertWire, Nat.min_eq_left hlen]
  rw [List.insertIdx_eraseIdx_self (Nat.ne_of_lt hi)]

/-- Reverting leads back, exactly so when no wire was removed under another token. -/
theorem Made.revert (made : ch.Made strict a b) (nodup : (keys a.nodes).Nodup) :
    (ch.revert b).Alike a ∧ (strict → ch.revert b = a) := by
  have exact_of {x : Contents} (h : x = a) : x.Alike a ∧ (strict → x = a) :=
    ⟨h ▸ Alike.refl _, fun _ => h⟩
  cases made with
  | addNode n fresh =>
    apply exact_of
    simp only [Change.revert, Contents.removeNode, Keyed.remove_append_of_not_mem fresh]
  | removeNode there => exact exact_of (insertNode_eraseIdx nodup there)
  | setBounds new there =>
    apply exact_of
    simp only [Change.revert, updateNode, Keyed.update_update]
    rw [Keyed.update_of_get? nodup there rfl]
  | addWire w fresh =>
    apply exact_of
    have hkept : a.wires.filter (·.handle != w.handle) = a.wires :=
      List.filter_eq_self.2 fun v hv => by simpa using fresh v hv
    simp [Change.revert, Contents.removeWire, List.filter_append, hkept]
  | removeWire i w token there kept =>
    have hback := insertWire_eraseIdx { w with token := token } there
    obtain ⟨hi, hget⟩ := List.getElem?_eq_some_iff.1 there
    constructor
    · refine ⟨by rw [Change.revert, hback], ?_⟩
      have hi' : i < (a.wires.map Wire.bare).length := by simpa using hi
      have hsame : Wire.bare { w with token := token } = (a.wires.map Wire.bare)[i] := by
        simp [Wire.bare, hget]
      rw [Change.revert, hback, List.map_set, hsame, List.set_getElem_self]
    · intro hs
      have hw : ({ w with token := token } : Wire) = w := by rw [kept hs]
      rw [Change.revert, hback, hw, ← hget, List.set_getElem_self]
  | setToken new there =>
    apply exact_of
    simp only [Change.revert, Contents.setToken, writeToken_writeToken]
    rw [writeToken_of_find? there]

theorem revert_alike (ch : Change) (h : a.Alike b) : (ch.revert a).Alike (ch.revert b) := by
  obtain ⟨hn, hw⟩ := h
  cases ch with
  | addNode i k n => exact ⟨by simp only [Change.revert, Contents.removeNode, hn], hw⟩
  | removeNode i k n => exact ⟨by simp only [Change.revert, insertNode, hn], hw⟩
  | setBounds k old new => exact ⟨by simp only [Change.revert, updateNode, hn], hw⟩
  | addWire i v =>
    refine ⟨hn, ?_⟩
    have hf (ws : List Wire) : (ws.filter (·.handle != v.handle)).map Wire.bare
        = (ws.map Wire.bare).filter (·.1 != v.handle) := by
      rw [List.filter_map]
      rfl
    simp only [Change.revert, Contents.removeWire, hf, hw]
  | removeWire i v =>
    refine ⟨hn, ?_⟩
    have hl := Alike.length_wires ⟨hn, hw⟩
    simp only [Change.revert, insertWire, List.map_insertIdx, hl, hw]
  | setToken k old new =>
    exact ⟨hn, by simp only [Change.revert, Contents.setToken, map_bare_writeToken, hw]⟩

end Change

namespace Trail

variable {strict : Prop} {cs : List Change} {a b : Contents}

theorem nodup_keys (trail : Trail strict cs a b) (nodup : (keys a.nodes).Nodup) :
    (keys b.nodes).Nodup := by
  induction trail with
  | nil => exact nodup
  | cons made _ ih => exact ih (made.nodup_keys nodup)

/-- Reverting a trail from its last change to its first leads back to where it began. -/
theorem revert (trail : Trail strict cs a b) (nodup : (keys a.nodes).Nodup) :
    (cs.foldr Change.revert b).Alike a ∧ (strict → cs.foldr Change.revert b = a) := by
  induction trail with
  | nil => exact ⟨Contents.Alike.refl _, fun _ => rfl⟩
  | cons made _ ih =>
    obtain ⟨halike, heq⟩ := ih (made.nodup_keys nodup)
    obtain ⟨hback, hexact⟩ := made.revert nodup
    refine ⟨(Change.revert_alike _ halike).trans hback, fun hs => ?_⟩
    rw [List.foldr_cons, heq hs, hexact hs]

end Trail

end Patchbay
