import Patchbay.Proofs.Entities
import Patchbay.Proofs.Misfit

/-!
# Whatever is done to a patch

Recorded calls, undo and redo, and what loaders and interpreters do to a patch behind its history.
None of it makes the patch know more but new things under new handles.
-/

namespace Patchbay

open Keyed (keys)

namespace Patch

variable {p q : Patch} {e : Ends} {h : Nat}

theorem exists_node (there : h ∈ keys p.nodes) {ch : Change} (about : ch.About (.node h)) :
    ∃ x ∈ p.toContents.entities, ch.About x :=
  ⟨.node h, Contents.mem_entities.2 (Or.inl ⟨h, there, rfl⟩), about⟩

theorem exists_wire {w : Wire} (there : w ∈ p.wires) {ch : Change}
    (about : ch.About (.wire w.handle w.ends)) : ∃ x ∈ p.toContents.entities, ch.About x :=
  ⟨.wire w.handle w.ends, Contents.mem_entities.2 (Or.inr ⟨w, there, rfl⟩), about⟩

theorem about_record {h : History} {ch : Change} {x : Entity} (about : ch.About x) :
    ∀ ch' ∈ (h.record [ch]).changes, ch' ∈ h.changes ∨ ch'.About x := by
  intro ch' hch
  refine (h.changes_record [ch] ch' hch).imp_right fun hch => ?_
  exact List.mem_singleton.1 hch ▸ about

theorem nodup_insertNode (bounded : p.Bounded) (n : Node) :
    (keys (p.nodes ++ [(p.freshHandle, n)])).Nodup :=
  Keyed.nodup_append bounded.nodup fun hm =>
    Nat.lt_irrefl _ (lt_freshHandle (bounded.sound.nodes_below _ hm))

theorem insertNode_evolves (p : Patch) (n : Node) :
    p.Evolves (some (.node p.freshHandle)) (p.insertNode n).2 :=
  evolves_fresh rfl nofun rfl (nodup_insertNode · n)
    (p.toContents.entities_addNode p.freshHandle n) fun _ hch => Or.inl hch

theorem createNode_evolves (p : Patch) (text : String) (position : Point) :
    p.Evolves (some (.node p.freshHandle)) (p.createNode text position).2 :=
  evolves_fresh rfl nofun rfl (nodup_insertNode · _)
    (p.toContents.entities_addNode p.freshHandle _) (about_record .addNode)

theorem owned_of_fits (fits : p.connectionFault e = none) (k : Nat) :
    ∀ h e', Entity.wire k e = .wire h e' →
      e'.outletOwner ∈ keys p.nodes ∧ e'.inletOwner ∈ keys p.nodes := by
  rintro h e' ⟨⟩
  obtain ⟨⟨n, m, source, sink, -⟩, -⟩ := fits_of_connectionFault fits
  exact ⟨Keyed.mem_keys_of_mem (Keyed.mem_of_get? source),
    Keyed.mem_keys_of_mem (Keyed.mem_of_get? sink)⟩

theorem insertWire_evolves (made : p.insertWire e = .ok (h, q)) :
    p.Evolves (some (.wire h e)) q := by
  unfold insertWire at made
  split at made
  · exact absurd made (by simp)
  · next fits =>
    obtain ⟨rfl, rfl⟩ := Prod.mk.inj (Except.ok.inj made)
    exact evolves_fresh rfl (owned_of_fits fits _) rfl (·.nodup)
      (p.toContents.entities_addWire ⟨p.freshHandle, e, ""⟩) fun _ hch => Or.inl hch

theorem connect_evolves (made : p.connect e = .ok (h, q)) : p.Evolves (some (.wire h e)) q := by
  unfold connect insertWire at made
  split at made
  · exact absurd made (by simp)
  · next added hins =>
    split at hins
    · exact absurd hins (by simp)
    · next fits =>
      obtain ⟨rfl, rfl⟩ := Prod.mk.inj (Except.ok.inj hins)
      obtain ⟨rfl, rfl⟩ := Prod.mk.inj (Except.ok.inj made)
      exact evolves_fresh rfl (owned_of_fits fits _) rfl (·.nodup)
        (p.toContents.entities_addWire ⟨p.freshHandle, e, ""⟩) (about_record .addWire)

theorem setBounds_evolves {bounds : Rect} (made : p.setBounds h bounds = .ok q) :
    p.Evolves none q := by
  unfold setBounds at made
  split at made
  · exact absurd made (by simp)
  · next n there =>
    split at made
    · exact Except.ok.inj made ▸ .refl p
    · obtain rfl := Except.ok.inj made
      have same : keys (p.updateNode h fun n => { n with bounds := bounds }).nodes
          = keys p.nodes := by simp [Contents.updateNode]
      refine evolves_record (fun nodup => same ▸ nodup)
        (Contents.entities_subset (fun k hk => same ▸ hk) fun _ hw => hw) fun ch hch => ?_
      obtain rfl := List.mem_singleton.1 hch
      exact exists_node (Keyed.mem_keys_of_mem (Keyed.mem_of_get? there)) .setBounds

theorem moveNode_evolves {delta : Point} (made : p.moveNode h delta = .ok q) :
    p.Evolves none q := by
  unfold moveNode at made
  split at made
  · exact absurd made (by simp)
  · exact setBounds_evolves made

theorem moveNodeTo_evolves {position : Point} (made : p.moveNodeTo h position = .ok q) :
    p.Evolves none q := by
  unfold moveNodeTo at made
  split at made
  · exact absurd made (by simp)
  · exact setBounds_evolves made

theorem setToken_evolves {token : String} (made : p.setToken h token = .ok q) :
    p.Evolves none q := by
  unfold setToken at made
  split at made
  · exact absurd made (by simp)
  · next w found =>
    split at made
    · exact Except.ok.inj made ▸ .refl p
    · obtain rfl := Except.ok.inj made
      refine evolves_record id (p.toContents.entities_setToken h token) fun ch hch => ?_
      obtain rfl := List.mem_singleton.1 hch
      obtain rfl : w.handle = h := by simpa using List.find?_some found
      exact exists_wire (List.mem_of_find?_eq_some found) .setToken

theorem changes_detach (hs : List Nat) (kept : Nat) (ws : List Wire) :
    ∀ ch ∈ (detach hs kept ws).2, ∃ i, ∃ w ∈ ws, ch = .removeWire i w := by
  induction ws generalizing kept with
  | nil => exact fun ch hch => absurd hch List.not_mem_nil
  | cons w ws ih =>
    intro ch hch
    have later {kept : Nat} (hch : ch ∈ (detach hs kept ws).2) :
        ∃ i, ∃ v ∈ w :: ws, ch = .removeWire i v := by
      obtain ⟨i, v, hv, same⟩ := ih kept ch hch
      exact ⟨i, v, List.mem_cons_of_mem _ hv, same⟩
    simp only [detach] at hch
    split at hch
    · rcases List.mem_cons.1 hch with rfl | hch
      · exact ⟨kept, w, List.mem_cons_self, rfl⟩
      · exact later hch
    · exact later hch

theorem changes_takeOut (hs : List Nat) (nodes : Keyed Node) :
    ∀ ch ∈ (takeOut hs nodes).2, ∃ i, ∃ k ∈ keys nodes, ∃ n, ch = .removeNode i k n := by
  induction hs generalizing nodes with
  | nil => exact fun ch hch => absurd hch List.not_mem_nil
  | cons h hs ih =>
    intro ch hch
    simp only [takeOut] at hch
    split at hch
    · next i n hi hn =>
      rcases List.mem_cons.1 hch with rfl | hch
      · exact ⟨i, h, Keyed.mem_keys_of_mem (Keyed.mem_of_get? hn), n, rfl⟩
      · obtain ⟨j, k, hk, m, same⟩ := ih _ ch hch
        exact ⟨j, k, ((List.eraseIdx_sublist _ _).map _).subset hk, m, same⟩
    · exact ih nodes ch hch

theorem removeNodes_evolves {hs : List Nat} (made : p.removeNodes hs = .ok q) :
    p.Evolves none q := by
  unfold removeNodes at made
  split at made
  · exact absurd made (by simp)
  · obtain rfl := Except.ok.inj made
    have fewer : (keys (takeOut hs p.nodes).1).Sublist (keys p.nodes) :=
      (takeOut_sublist hs p.nodes).map _
    refine evolves_record (d := ⟨(takeOut hs p.nodes).1, (detach hs 0 p.wires).1⟩)
      (·.sublist fewer) ?_ fun ch hch => ?_
    · exact Contents.entities_subset (fun k hk => fewer.subset hk)
        ((detach_sublist hs 0 p.wires).map _).subset
    · rcases List.mem_append.1 hch with hch | hch
      · obtain ⟨i, w, hw, rfl⟩ := changes_detach hs 0 p.wires ch hch
        exact exists_wire hw .removeWire
      · obtain ⟨i, k, hk, n, rfl⟩ := changes_takeOut hs p.nodes ch hch
        exact exists_node hk .removeNode

theorem disconnect_evolves {token : String} (made : p.disconnect e token = .ok q) :
    p.Evolves none q := by
  unfold disconnect at made
  split at made
  · next i w _ found =>
    obtain rfl := Except.ok.inj made
    refine evolves_record (d := { p.toContents with wires := p.wires.eraseIdx i }) id
      (Contents.entities_subset (fun _ hk => hk) ((List.eraseIdx_sublist _ _).map _).subset)
      fun ch hch => ?_
    obtain rfl := List.mem_singleton.1 hch
    exact exists_wire (List.mem_of_find?_eq_some found) .removeWire
  · exact absurd made (by simp)

theorem openSequence_evolves (p : Patch) (label : String) : p.Evolves none (p.openSequence label) :=
  evolves_of rfl id (List.Subset.refl _) fun _ hch =>
    Or.inl (p.history.changes_openSequence label hch)

theorem closeSequence_evolves (p : Patch) : p.Evolves none p.closeSequence :=
  evolves_of rfl id (List.Subset.refl _) fun _ hch => Or.inl (p.history.changes_closeSequence hch)

theorem deliver_evolves (p : Patch) : p.Evolves none p.deliver :=
  evolves_of rfl id (List.Subset.refl _) fun _ hch => Or.inl hch

theorem revert_evolves {s : Step} {h' : History}
    (known : s ∈ p.history.done ∨ s ∈ p.history.undone)
    (turned : ∀ ch ∈ h'.changes, ch ∈ p.history.changes ∨ ch.inverse ∈ p.history.changes) :
    p.Evolves none { p with toContents := s.revert p.toContents, history := h' } where
  next := rfl
  fresh := nofun
  owned := nofun
  nodup bounded := s.nodup_revert bounded.nodup
  contents x hx := by
    refine Or.inl ?_
    rcases s.entities_revert p.toContents x hx with hx | hx
    · exact List.mem_append_left _ hx
    · obtain ⟨ch, hch, hx⟩ := List.mem_flatMap.1 hx
      have hch := History.mem_changes.2 ⟨s, known.imp_right Or.inl, hch⟩
      exact List.mem_append_right _ (History.mem_entities.2 ⟨ch, hch, hx⟩)
  history ch hch := (turned ch hch).imp_right Or.inl

theorem undo?_evolves (made : p.undo? = some q) : p.Evolves none q := by
  unfold undo? at made
  split at made
  · exact absurd made (by simp)
  · next s rest hs =>
    obtain rfl := Option.some.inj made
    exact revert_evolves (Or.inl (hs ▸ List.mem_cons_self)) (History.changes_undo hs)

theorem redo?_evolves (made : p.redo? = some q) : p.Evolves none q := by
  unfold redo? at made
  split at made
  · exact absurd made (by simp)
  · next s rest hs =>
    obtain rfl := Option.some.inj made
    exact revert_evolves (Or.inr (hs ▸ List.mem_cons_self)) (History.changes_redo hs)

theorem setJacks_evolves (p : Patch) (h : Nat) (inlets outlets : List Bool) :
    p.Evolves none (p.setJacks h inlets outlets) := by
  unfold setJacks
  split
  · have same : keys (p.updateNode h fun n => { n with inlets := inlets, outlets := outlets }).nodes
        = keys p.nodes := by simp [Contents.updateNode]
    exact evolves_of rfl (fun nodup => same ▸ nodup) (Contents.entities_subset
      (fun k hk => same ▸ hk) (List.filter_sublist.map _).subset) fun _ hch => Or.inl hch
  · exact .refl p

theorem swap_evolves (p : Patch) (i j : Nat) : p.Evolves none (p.swap i j) := by
  unfold swap
  split
  · next a b hi hj =>
    obtain ⟨hlt, rfl⟩ := List.getElem?_eq_some_iff.1 hi
    obtain ⟨hlt', rfl⟩ := List.getElem?_eq_some_iff.1 hj
    have perm : ((p.nodes.set i p.nodes[j]).set j p.nodes[i]).Perm p.nodes :=
      List.set_set_perm hlt hlt'
    exact evolves_of rfl (perm.map _).nodup_iff.2 (Contents.entities_subset
      (fun k hk => (perm.map _).mem_iff.1 hk) fun _ hw => hw) fun _ hch => Or.inl hch
  · exact .refl p

/-- What can happen to a patch: recorded calls, undo and redo, and what is not recorded. -/
inductive Mutation where
  | edit (o : Operation)
  | undo
  | redo
  | openSequence (label : String)
  | closeSequence
  | setJacks (handle : Nat) (inlets outlets : List Bool)
  | swap (i j : Nat)
  | insertNode (n : Node)
  | insertWire (e : Ends)
  | deliver
  deriving DecidableEq, Repr

/-- A call that is refused leaves the patch as it is. -/
def Mutation.run : Mutation → Patch → Patch
  | edit o, p => (o.run p).toOption.getD p
  | undo, p => p.undo?.getD p
  | redo, p => p.redo?.getD p
  | openSequence label, p => p.openSequence label
  | closeSequence, p => p.closeSequence
  | setJacks h inlets outlets, p => p.setJacks h inlets outlets
  | swap i j, p => p.swap i j
  | insertNode n, p => (p.insertNode n).2
  | insertWire e, p => ((p.insertWire e).toOption.map (·.2)).getD p
  | deliver, p => p.deliver

end Patch

def Operation.handle? : Operation → Patch → Option Nat
  | createNode text position, p => some (p.createNode text position).1
  | connect e, p => (p.connect e).toOption.map (·.1)
  | _, _ => none

theorem Operation.handle?_of_error {p : Patch} {o : Operation} {fault : EditError}
    (refused : o.run p = .error fault) : o.handle? p = none := by
  cases o with
  | createNode text position => exact absurd refused nofun
  | connect e =>
    cases hc : p.connect e with
    | error fault => simp [handle?, hc, Except.toOption]
    | ok result => simp [run, hc, Except.map] at refused
  | _ => rfl

theorem Operation.evolves {p q : Patch} (o : Operation) (made : o.run p = .ok q) :
    ∃ new : Option Entity, p.Evolves new q ∧ new.map Entity.handle = o.handle? p := by
  cases o with
  | createNode text position =>
    obtain rfl := Except.ok.inj made
    exact ⟨_, Patch.createNode_evolves p text position, rfl⟩
  | moveNode h delta => exact ⟨none, Patch.moveNode_evolves made, rfl⟩
  | moveNodeTo h position => exact ⟨none, Patch.moveNodeTo_evolves made, rfl⟩
  | setBounds h bounds => exact ⟨none, Patch.setBounds_evolves made, rfl⟩
  | removeNodes hs => exact ⟨none, Patch.removeNodes_evolves made, rfl⟩
  | connect e =>
    cases hc : p.connect e with
    | error fault => simp [run, hc, Except.map] at made
    | ok result =>
      obtain rfl : result.2 = q := by simpa [run, hc, Except.map] using made
      exact ⟨_, Patch.connect_evolves hc, by simp [handle?, hc, Except.toOption, Entity.handle]⟩
  | disconnect e token => exact ⟨none, Patch.disconnect_evolves made, rfl⟩
  | setToken h token => exact ⟨none, Patch.setToken_evolves made, rfl⟩

namespace Patch

def Mutation.handle? : Mutation → Patch → Option Nat
  | edit o, p => o.handle? p
  | insertNode n, p => some (p.insertNode n).1
  | insertWire e, p => (p.insertWire e).toOption.map (·.1)
  | _, _ => none

/-- Whatever is done to a patch, all that comes to be is what is given the handle of the answer. -/
theorem Mutation.evolves (m : Mutation) (p : Patch) :
    ∃ new : Option Entity, p.Evolves new (m.run p) ∧ new.map Entity.handle = m.handle? p := by
  cases m with
  | edit o =>
    cases made : o.run p with
    | error e =>
      exact ⟨none, by simpa [run, made, Except.toOption] using .refl p,
        (o.handle?_of_error made).symm⟩
    | ok q => simpa [run, handle?, made, Except.toOption] using o.evolves made
  | undo =>
    cases made : p.undo? with
    | none => exact ⟨none, by simpa [run, made] using .refl p, rfl⟩
    | some q => exact ⟨none, by simpa [run, made] using undo?_evolves made, rfl⟩
  | redo =>
    cases made : p.redo? with
    | none => exact ⟨none, by simpa [run, made] using .refl p, rfl⟩
    | some q => exact ⟨none, by simpa [run, made] using redo?_evolves made, rfl⟩
  | openSequence label => exact ⟨none, openSequence_evolves p label, rfl⟩
  | closeSequence => exact ⟨none, closeSequence_evolves p, rfl⟩
  | setJacks h inlets outlets => exact ⟨none, setJacks_evolves p h inlets outlets, rfl⟩
  | swap i j => exact ⟨none, swap_evolves p i j, rfl⟩
  | insertNode n => exact ⟨_, insertNode_evolves p n, rfl⟩
  | insertWire e =>
    cases made : p.insertWire e with
    | error fault =>
      exact ⟨none, by simpa [run, made, Except.toOption] using .refl p,
        by simp [handle?, made, Except.toOption]⟩
    | ok result =>
      obtain ⟨h, q⟩ := result
      exact ⟨some (.wire h e), by simpa [run, made, Except.toOption] using insertWire_evolves made,
        by simp [handle?, made, Except.toOption, Entity.handle]⟩
  | deliver => exact ⟨none, deliver_evolves p, rfl⟩

theorem Mutation.follows {p : Patch} (bounded : p.Bounded) (m : Mutation) :
    p.Follows (m.run p) := by
  obtain ⟨new, evolves, -⟩ := m.evolves p
  exact evolves.follows bounded

end Patch

end Patchbay
