import Patchbay.Proofs.Change

/-!
# Changes in either order

Two changes that are apart come to the same in either order, as redo makes them: nodes and wires
are found by their handles, and only a node or a wire that is put in needs its place.
-/

namespace Patchbay

namespace Keyed

variable {α : Type} {h k : Nat}

theorem remove_comm (xs : Keyed α) (h k : Nat) :
    remove (remove xs h) k = remove (remove xs k) h := by
  simp only [remove, List.filter_filter, Bool.and_comm]

theorem remove_update (xs : Keyed α) (h k : Nat) (f : α → α) :
    remove (update xs k f) h = update (remove xs h) k f := by
  induction xs with
  | nil => rfl
  | cons x rest ih =>
    obtain ⟨j, a⟩ := x
    simp only [remove, update, List.map_cons, List.filter_cons] at ih ⊢
    by_cases hj : j = h <;> by_cases hk : j = k <;> simp_all

theorem update_comm (ne : h ≠ k) (xs : Keyed α) (f g : α → α) :
    update (update xs h f) k g = update (update xs k g) h f := by
  simp only [update, List.map_map]
  apply List.map_congr_left
  intro x _
  by_cases hh : x.1 = h
  · have hk : x.1 ≠ k := hh.trans_ne ne
    simp [hh, ne]
  · by_cases hk : x.1 = k
    · simp [hk, ne.symm]
    · simp [hh, hk]

end Keyed

namespace Contents

variable {h k : Nat}

theorem insertNode_updateNode (ne : h ≠ k) (c : Contents) (i : Nat) (n : Node) (f : Node → Node) :
    (c.updateNode k f).insertNode i h n = (c.insertNode i h n).updateNode k f := by
  have hlen (xs : Keyed Node) : (Keyed.update xs k f).length = xs.length := List.length_map _
  simp only [insertNode, updateNode, Keyed.remove_update, hlen]
  simp only [Keyed.update, List.map_insertIdx, ne, if_false]

theorem updateNode_comm (ne : h ≠ k) (c : Contents) (f g : Node → Node) :
    (c.updateNode h f).updateNode k g = (c.updateNode k g).updateNode h f :=
  congrArg (Contents.mk · c.wires) (Keyed.update_comm ne c.nodes f g)

theorem writeToken_comm (ne : h ≠ k) (t u : String) (ws : List Wire) :
    writeToken h t (writeToken k u ws) = writeToken k u (writeToken h t ws) := by
  induction ws with
  | nil => rfl
  | cons w ws ih =>
    by_cases hw : w.handle = h
    · have hk : w.handle ≠ k := hw.trans_ne ne
      simp [writeToken, hw, ne]
    · by_cases hk : w.handle = k
      · simp [writeToken, hk, ne.symm]
      · simp [writeToken, hw, hk, ih]

theorem writeToken_of_fresh {ws : List Wire} (fresh : ∀ w ∈ ws, w.handle ≠ k) (t : String) :
    writeToken k t ws = ws := by
  induction ws with
  | nil => rfl
  | cons w ws ih =>
    obtain ⟨hw, hws⟩ := List.forall_mem_cons.1 fresh
    rw [writeToken_cons_of_ne hw, ih hws]

theorem filter_writeToken (h k : Nat) (t : String) (ws : List Wire) :
    (writeToken k t ws).filter (·.handle != h) = writeToken k t (ws.filter (·.handle != h)) := by
  induction ws with
  | nil => rfl
  | cons w ws ih =>
    by_cases hh : w.handle = h
    · by_cases hk : w.handle = k
      · have fresh : ∀ v ∈ ws.filter (·.handle != h), v.handle ≠ k := by
          intro v hv
          have hvh : v.handle ≠ h := by simpa using (List.mem_filter.1 hv).2
          exact hvh.trans_eq (hh.symm.trans hk)
        simp [writeToken_cons_of_eq hk, hh, writeToken_of_fresh fresh]
      · simp [writeToken_cons_of_ne hk, hh, ih]
    · by_cases hk : w.handle = k
      · have keep : (w.handle != h) = true := by simpa using hh
        simp only [writeToken_cons_of_eq hk, List.filter_cons, keep, if_true]
      · simp [writeToken, hh, hk, ih]

theorem filter_comm (h k : Nat) (ws : List Wire) :
    (ws.filter (·.handle != k)).filter (·.handle != h)
      = (ws.filter (·.handle != h)).filter (·.handle != k) := by
  simp only [List.filter_filter, Bool.and_comm]

theorem length_writeToken (k : Nat) (t : String) (ws : List Wire) :
    (writeToken k t ws).length = ws.length := by
  simpa using congrArg List.length (map_bare_writeToken k t ws)

theorem insertIdx_writeToken {w : Wire} (ne : w.handle ≠ k) (i : Nat) (t : String)
    (ws : List Wire) : (writeToken k t ws).insertIdx i w = writeToken k t (ws.insertIdx i w) := by
  induction ws generalizing i with
  | nil => cases i <;> simp [writeToken, ne]
  | cons v ws ih =>
    cases i with
    | zero => rw [List.insertIdx_zero, List.insertIdx_zero, writeToken_cons_of_ne ne]
    | succ i =>
      rw [List.insertIdx_succ_cons]
      by_cases hv : v.handle = k
      · rw [writeToken_cons_of_eq hv, writeToken_cons_of_eq hv, List.insertIdx_succ_cons]
      · rw [writeToken_cons_of_ne hv, writeToken_cons_of_ne hv, List.insertIdx_succ_cons, ih]

end Contents

namespace Change

/-- A change as redo makes it: nodes and wires go by their handles. -/
def again (ch : Change) : Contents → Contents := ch.inverse.revert

def apart : Change → Change → Bool
  | addNode _ h _, setBounds k _ _ => h != k
  | setBounds k _ _, addNode _ h _ => h != k
  | setBounds h _ _, setBounds k _ _ => h != k
  | addWire _ w, setToken k _ _ => w.handle != k
  | setToken k _ _, addWire _ w => w.handle != k
  | setToken h _ _, setToken k _ _ => h != k
  | addNode .., addNode .. => false
  | addNode .., removeNode .. => false
  | removeNode .., addNode .. => false
  | addWire .., addWire .. => false
  | addWire .., removeWire .. => false
  | removeWire .., addWire .. => false
  | _, _ => true

variable {c d : Change}

theorem again_comm (h : c.apart d = true) (x : Contents) :
    c.again (d.again x) = d.again (c.again x) := by
  have insertNode_setBounds {i h k : Nat} {n : Node} {f : Node → Node} (ne : (h != k) = true) :
      (x.updateNode k f).insertNode i h n = (x.insertNode i h n).updateNode k f :=
    Contents.insertNode_updateNode (by simpa using ne) x i n f
  have removeNode_setBounds {h k : Nat} {f : Node → Node} :
      (x.updateNode k f).removeNode h = (x.removeNode h).updateNode k f := by
    simp only [Contents.updateNode, Contents.removeNode, Keyed.remove_update]
  have insertWire_setToken {i k : Nat} {w : Wire} {t : String} (ne : (w.handle != k) = true) :
      (x.setToken k t).insertWire i w = (x.insertWire i w).setToken k t := by
    simp only [Contents.setToken, Contents.insertWire, Contents.length_writeToken,
      Contents.insertIdx_writeToken (show w.handle ≠ k by simpa using ne)]
  have removeWire_setToken {h k : Nat} {t : String} :
      (x.setToken k t).removeWire h = (x.removeWire h).setToken k t := by
    simp only [Contents.setToken, Contents.removeWire, Contents.filter_writeToken]
  cases c with
  | addNode i k n =>
    cases d with
    | setBounds l old new => exact insertNode_setBounds h
    | addNode _ _ _ | removeNode _ _ _ => exact absurd h Bool.false_ne_true
    | _ => rfl
  | removeNode i k n =>
    cases d with
    | setBounds l old new => exact removeNode_setBounds
    | addNode _ _ _ => exact absurd h Bool.false_ne_true
    | removeNode j l m => exact congrArg (Contents.mk · x.wires) (Keyed.remove_comm _ _ _)
    | _ => rfl
  | setBounds k old new =>
    cases d with
    | addNode j l m => exact (insertNode_setBounds h).symm
    | removeNode j l m => exact removeNode_setBounds.symm
    | setBounds l old' new' =>
      have ne : l ≠ k := Ne.symm (by simpa [apart] using h)
      exact Contents.updateNode_comm ne x _ _
    | _ => rfl
  | addWire i w =>
    cases d with
    | setToken l old new => exact insertWire_setToken h
    | addWire _ _ | removeWire _ _ => exact absurd h Bool.false_ne_true
    | _ => rfl
  | removeWire i w =>
    cases d with
    | setToken l old new => exact removeWire_setToken
    | addWire _ _ => exact absurd h Bool.false_ne_true
    | removeWire j v =>
      exact congrArg (Contents.mk x.nodes) (Contents.filter_comm w.handle v.handle x.wires)
    | _ => rfl
  | setToken k old new =>
    cases d with
    | addWire j v => exact (insertWire_setToken h).symm
    | removeWire j v => exact removeWire_setToken.symm
    | setToken l old' new' =>
      exact congrArg (Contents.mk x.nodes)
        (Contents.writeToken_comm (by simpa [apart] using h) _ _ _)
    | _ => rfl

theorem again_foldl {cs : List Change} (h : ∀ d ∈ cs, c.apart d = true) (x : Contents) :
    c.again (cs.foldl (fun x ch => ch.again x) x)
      = cs.foldl (fun x ch => ch.again x) (c.again x) := by
  induction cs generalizing x with
  | nil => rfl
  | cons d cs ih =>
    obtain ⟨hd, hcs⟩ := List.forall_mem_cons.1 h
    rw [List.foldl_cons, ih hcs, again_comm hd, List.foldl_cons]

theorem foldr_again {cs : List Change} (h : cs.Pairwise fun c d => c.apart d = true)
    (x : Contents) : cs.foldr again x = cs.foldl (fun x ch => ch.again x) x := by
  induction cs generalizing x with
  | nil => rfl
  | cons c cs ih =>
    obtain ⟨hc, hcs⟩ := List.pairwise_cons.1 h
    rw [List.foldr_cons, ih hcs, again_foldl hc, List.foldl_cons]

end Change

end Patchbay
