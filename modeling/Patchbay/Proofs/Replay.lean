import Patchbay.Proofs.Change

/-!
# Making undone changes again

Making the changes of a trail again, from the first to the last, brings back what was undone. It
does so also where undo has put another token on a wire than the wire had: such a wire is removed
again before the trail ends.
-/

namespace Patchbay

open Keyed (keys)

namespace Change

def make : Change → Contents → Contents
  | addNode i h n, c => { c with nodes := c.nodes.insertIdx i (h, n) }
  | removeNode i _ _, c => { c with nodes := c.nodes.eraseIdx i }
  | setBounds h _ new, c => c.updateNode h fun n => { n with bounds := new }
  | addWire i w, c => { c with wires := c.wires.insertIdx i w }
  | removeWire i _, c => { c with wires := c.wires.eraseIdx i }
  | setToken h _ new, c => c.setToken h new

theorem Made.make_eq {strict : Prop} {ch : Change} {a b : Contents} (made : ch.Made strict a b) :
    ch.make a = b := by
  cases made with
  | addNode n fresh => simp [make, List.insertIdx_length_self]
  | removeNode there => rfl
  | setBounds new there => rfl
  | addWire w fresh => simp [make, List.insertIdx_length_self]
  | removeWire i w token there kept => rfl
  | setToken new there => rfl

end Change

theorem Wire.withToken_eq {v w : Wire} (h : v.bare = w.bare) (t : String) :
    ({ v with token := t } : Wire) = { w with token := t } := by
  obtain ⟨hh, he⟩ := Prod.mk.inj h
  simp only [hh, he]

/-- Wires that take each token from one of two lists that differ in tokens only. -/
inductive Blend : List Wire → List Wire → List Wire → Prop
  | nil : Blend [] [] []
  | cons {x y z : Wire} {xs ys zs : List Wire} (same : x.bare = y.bare) (pick : z = x ∨ z = y) :
      Blend xs ys zs → Blend (x :: xs) (y :: ys) (z :: zs)

namespace Blend

variable {xs ys zs : List Wire}

theorem append_left {us vs ws : List Wire} (h : xs.map Wire.bare = ys.map Wire.bare)
    (rest : Blend us vs ws) : Blend (xs ++ us) (ys ++ vs) (xs ++ ws) := by
  induction xs generalizing ys with
  | nil =>
    obtain rfl : ys = [] := by simpa using h.symm
    exact rest
  | cons x xs ih =>
    cases ys with
    | nil => simp at h
    | cons y ys =>
      obtain ⟨hxy, htail⟩ := List.cons.inj h
      exact .cons hxy (Or.inl rfl) (ih htail)

theorem left (h : xs.map Wire.bare = ys.map Wire.bare) : Blend xs ys xs := by
  simpa using append_left h .nil

theorem eq_of_eq (h : Blend xs ys zs) (hxy : xs = ys) : zs = xs := by
  induction h with
  | nil => rfl
  | cons same pick rest ih =>
    obtain ⟨rfl, hrest⟩ := List.cons.inj hxy
    rw [ih hrest, or_self_iff.1 pick]

theorem bare_eq (h : Blend xs ys zs) : xs.map Wire.bare = ys.map Wire.bare := by
  induction h with
  | nil => rfl
  | cons same pick rest ih => rw [List.map_cons, List.map_cons, same, ih]

theorem eraseIdx (h : Blend xs ys zs) (i : Nat) :
    Blend (xs.eraseIdx i) (ys.eraseIdx i) (zs.eraseIdx i) := by
  induction h generalizing i with
  | nil => exact .nil
  | cons same pick rest ih =>
    cases i with
    | zero => exact rest
    | succ i => exact .cons same pick (ih i)

theorem insertIdx (h : Blend xs ys zs) (i : Nat) (w : Wire) :
    Blend (xs.insertIdx i w) (ys.insertIdx i w) (zs.insertIdx i w) := by
  induction h generalizing i with
  | nil =>
    cases i with
    | zero => exact .cons rfl (Or.inl rfl) .nil
    | succ i => exact .nil
  | cons same pick rest ih =>
    cases i with
    | zero => exact .cons rfl (Or.inl rfl) (.cons same pick rest)
    | succ i => exact .cons same pick (ih i)

theorem writeToken (h : Blend xs ys zs) (k : Nat) (t : String) :
    Blend (Contents.writeToken k t xs) (Contents.writeToken k t ys)
      (Contents.writeToken k t zs) := by
  induction h with
  | nil => exact .nil
  | @cons x y z xs ys zs same pick rest ih =>
    have hz : z.bare = x.bare := by rcases pick with rfl | rfl <;> simp [same]
    have hy : y.handle = x.handle := (congrArg Prod.fst same).symm
    have hz' : z.handle = x.handle := congrArg Prod.fst hz
    by_cases hk : x.handle = k
    · rw [Contents.writeToken_cons_of_eq hk, Contents.writeToken_cons_of_eq (hy.trans hk),
        Contents.writeToken_cons_of_eq (hz'.trans hk)]
      exact .cons same (Or.inl (Wire.withToken_eq hz t)) rest
    · rw [Contents.writeToken_cons_of_ne hk, Contents.writeToken_cons_of_ne (hy.trans_ne hk),
        Contents.writeToken_cons_of_ne (hz'.trans_ne hk)]
      exact .cons same pick ih

theorem of_writeToken {k : Nat} {t : String}
    (h : xs.map Wire.bare = (Contents.writeToken k t ys).map Wire.bare) :
    Blend xs (Contents.writeToken k t ys) (Contents.writeToken k t xs) := by
  rw [Contents.map_bare_writeToken] at h
  induction xs generalizing ys with
  | nil =>
    obtain rfl : ys = [] := by simpa using h.symm
    exact .nil
  | cons x xs ih =>
    cases ys with
    | nil => simp at h
    | cons y ys =>
      obtain ⟨hxy, hrest⟩ := List.cons.inj h
      have hy : y.handle = x.handle := (congrArg Prod.fst hxy).symm
      by_cases hk : x.handle = k
      · rw [Contents.writeToken_cons_of_eq hk, Contents.writeToken_cons_of_eq (hy.trans hk)]
        exact .cons hxy (Or.inr (Wire.withToken_eq hxy t)) (left hrest)
      · rw [Contents.writeToken_cons_of_ne hk, Contents.writeToken_cons_of_ne (hy.trans_ne hk)]
        exact .cons hxy (Or.inl rfl) (ih hrest)

end Blend

namespace Contents

/-- Contents that take each token from one of two that differ in tokens only. -/
def IsBlend (x y z : Contents) : Prop :=
  y.nodes = x.nodes ∧ z.nodes = x.nodes ∧ Blend x.wires y.wires z.wires

theorem IsBlend.eq_of_eq {x z : Contents} (h : IsBlend x x z) : z = x := by
  obtain ⟨-, hn, hw⟩ := h
  cases x
  cases z
  exact congrArg₂ Contents.mk hn (hw.eq_of_eq rfl)

theorem Alike.isBlend {x y : Contents} (h : x.Alike y) : IsBlend x y x :=
  ⟨h.1.symm, rfl, .left h.2⟩

theorem IsBlend.make {x y z : Contents} (h : IsBlend x y z) (ch : Change) :
    IsBlend (ch.make x) (ch.make y) (ch.make z) := by
  obtain ⟨hy, hz, hw⟩ := h
  cases ch with
  | addNode i k n => exact ⟨by simp only [Change.make, hy], by simp only [Change.make, hz], hw⟩
  | removeNode i k n => exact ⟨by simp only [Change.make, hy], by simp only [Change.make, hz], hw⟩
  | setBounds k old new =>
    exact ⟨by simp only [Change.make, updateNode, hy],
      by simp only [Change.make, updateNode, hz], hw⟩
  | addWire i w => exact ⟨hy, hz, hw.insertIdx i w⟩
  | removeWire i w => exact ⟨hy, hz, hw.eraseIdx i⟩
  | setToken k old new => exact ⟨hy, hz, hw.writeToken k new⟩

theorem IsBlend.foldl_make {x y z : Contents} (h : IsBlend x y z) (cs : List Change) :
    IsBlend (cs.foldl (fun c ch => ch.make c) x) (cs.foldl (fun c ch => ch.make c) y)
      (cs.foldl (fun c ch => ch.make c) z) := by
  induction cs generalizing x y z with
  | nil => exact h
  | cons ch cs ih => exact ih (h.make ch)

end Contents

namespace Change

open Contents

variable {strict : Prop} {ch : Change} {a b c u : Contents}

/-- Reverting a change and making it again blends the tokens from before and after. -/
theorem Made.isBlend_make_revert (made : ch.Made strict a b) (nodup : (keys a.nodes).Nodup)
    (alike : u.Alike b) : IsBlend u b (ch.make (ch.revert u)) := by
  have same {v : Contents} (h : v = u) : IsBlend u b v := h ▸ alike.isBlend
  obtain ⟨nodes, wires⟩ := u
  obtain ⟨rfl, hw⟩ := alike
  cases made with
  | addNode n fresh =>
    apply same
    simp only [Change.make, Change.revert, Contents.removeNode,
      Keyed.remove_append_of_not_mem fresh, List.insertIdx_length_self]
  | @removeNode _ i h n there =>
    apply same
    have hback : (Contents.mk (a.nodes.eraseIdx i) wires).insertNode i h n = ⟨a.nodes, wires⟩ :=
      insertNode_eraseIdx (a := ⟨a.nodes, wires⟩) nodup there
    simp only [Change.make, Change.revert, hback]
  | setBounds new there =>
    apply same
    simp only [Change.make, Change.revert, updateNode, Keyed.update_update]
    rfl
  | addWire w fresh =>
    obtain ⟨us, vs, rfl, hus, hvs⟩ := List.map_eq_append_iff.1 (hw.trans List.map_append)
    obtain ⟨v, rfl, hv⟩ := List.map_eq_singleton_iff.1 hvs
    have hlen : us.length = a.wires.length := by simpa using congrArg List.length hus
    have hkept : us.filter (·.handle != w.handle) = us := by
      apply List.filter_eq_self.2
      intro x hx
      obtain ⟨y, hy, hyx⟩ := List.mem_map.1 (hus ▸ List.mem_map_of_mem hx)
      have hne : y.handle ≠ w.handle := fresh y hy
      have hxy : y.handle = x.handle := congrArg Prod.fst hyx
      simpa [← hxy] using hne
    have hvw : v.handle = w.handle := congrArg Prod.fst hv
    have hgone : (v.handle != w.handle) = false := by simpa using hvw
    have hback : (us ++ [v]).filter (·.handle != w.handle) = us := by
      simp [List.filter_append, hkept, hgone]
    refine ⟨rfl, rfl, ?_⟩
    simp only [Change.make, Change.revert, Contents.removeWire, hback, ← hlen,
      List.insertIdx_length_self]
    exact .append_left hus (.cons hv (Or.inr rfl) .nil)
  | removeWire i w token there kept =>
    apply same
    obtain ⟨hi, -⟩ := List.getElem?_eq_some_iff.1 there
    have hlen : i ≤ wires.length := by
      have h : wires.length = (a.wires.eraseIdx i).length := by simpa using congrArg List.length hw
      rw [h, List.length_eraseIdx_of_lt hi]
      omega
    simp only [Change.make, Change.revert, insertWire, Nat.min_eq_left hlen,
      List.eraseIdx_insertIdx_self]
  | setToken new there =>
    refine ⟨rfl, rfl, ?_⟩
    simp only [Change.make, Change.revert, Contents.setToken, writeToken_writeToken]
    exact .of_writeToken hw

theorem Made.make_alike (made : ch.Made strict a b) (alike : u.Alike a) :
    (ch.make u).Alike b := by
  have hb := made.make_eq
  have hmake := (alike.isBlend.make ch)
  rw [hb] at hmake
  exact ⟨hmake.1.symm, hmake.2.2.bare_eq⟩

end Change

namespace Trail

variable {strict : Prop} {cs : List Change} {a b : Contents}

theorem foldl_make (trail : Trail strict cs a b) : cs.foldl (fun c ch => ch.make c) a = b := by
  induction trail with
  | nil => rfl
  | cons made _ ih => rw [List.foldl_cons, made.make_eq, ih]

theorem foldl_make_revert (trail : Trail strict cs a b) (nodup : (keys a.nodes).Nodup) :
    cs.foldl (fun c ch => ch.make c) (cs.foldr Change.revert b) = b := by
  induction trail with
  | nil => rfl
  | @cons ch cs a b c made rest ih =>
    have hnodup := made.nodup_keys nodup
    have hback := ih hnodup
    -- The blend is between what the rest of the trail was undone to and where it began.
    have hblend := (made.isBlend_make_revert nodup (rest.revert hnodup).1).foldl_make cs
    rw [hback, rest.foldl_make] at hblend
    exact hblend.eq_of_eq

end Trail

end Patchbay
