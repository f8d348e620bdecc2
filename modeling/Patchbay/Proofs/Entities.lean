import Patchbay.Proofs.Operation

/-!
# The nodes and wires that a patch knows of

A patch knows the nodes and wires that it holds, and those that its history can bring back. Whatever
is done to it, by calls or by undo and redo, all that it comes to know is new, under a handle that
was not given out before. So a handle never stands for two things, but for what a patch was loaded
with.
-/

namespace Patchbay

open Keyed (keys)

inductive Entity where
  | node (handle : Nat)
  | wire (handle : Nat) (ends : Ends)
  deriving DecidableEq, Repr

def Entity.handle : Entity → Nat
  | node h | wire h _ => h

def Contents.entities (c : Contents) : List Entity :=
  (keys c.nodes).map .node ++ c.wires.map fun w => .wire w.handle w.ends

def Change.entities : Change → List Entity
  | addNode _ h _ | removeNode _ h _ => [.node h]
  | addWire _ w | removeWire _ w => [.wire w.handle w.ends]
  | setBounds _ _ _ | setToken _ _ _ => []

/-- What a change is about. That a token is set tells of the wire by its handle alone. -/
inductive Change.About : Change → Entity → Prop
  | addNode {i h : Nat} {n : Node} : About (.addNode i h n) (.node h)
  | removeNode {i h : Nat} {n : Node} : About (.removeNode i h n) (.node h)
  | setBounds {h : Nat} {old new : Rect} : About (.setBounds h old new) (.node h)
  | addWire {i : Nat} {w : Wire} : About (.addWire i w) (.wire w.handle w.ends)
  | removeWire {i : Nat} {w : Wire} : About (.removeWire i w) (.wire w.handle w.ends)
  | setToken {h : Nat} {old new : String} {e : Ends} : About (.setToken h old new) (.wire h e)

def History.changes (h : History) : List Change :=
  (h.done ++ h.undone ++ h.sequences).flatMap Step.changes

def History.entities (h : History) : List Entity :=
  ((h.done ++ h.undone ++ h.sequences).flatMap Step.changes).flatMap Change.entities

namespace Patch

def entities (p : Patch) : List Entity := p.toContents.entities ++ p.history.entities

/-- No node stands twice, and the next handle is past every handle that was ever given out. -/
structure Bounded (p : Patch) : Prop where
  nodup : (keys p.nodes).Nodup
  below : ∀ x ∈ p.entities, x.handle < p.next

/-- What a patch may become: it knows nothing more but entities under handles of their own, which
were not given out before. -/
structure Follows (p q : Patch) : Prop where
  bounded : q.Bounded
  next : p.next ≤ q.next
  entities : ∀ x ∈ q.entities, x ∈ p.entities ∨
    p.next ≤ x.handle ∧ ∀ y ∈ q.entities, y.handle = x.handle → y = x

end Patch

variable {p q r : Patch} {x : Entity} {c : Contents} {h : History} {cs : List Change} {n : Node}
  {w : Wire}

namespace Contents

theorem mem_entities : x ∈ c.entities ↔
    (∃ k ∈ keys c.nodes, x = .node k) ∨ ∃ w ∈ c.wires, x = .wire w.handle w.ends := by
  simp only [entities, List.mem_append, List.mem_map, eq_comm]

theorem entities_subset {d : Contents} (nodes : ∀ k ∈ keys d.nodes, k ∈ keys c.nodes)
    (wires : ∀ w ∈ d.wires.map Wire.bare, w ∈ c.wires.map Wire.bare) : d.entities ⊆ c.entities := by
  intro x hx
  rcases mem_entities.1 hx with ⟨k, hk, rfl⟩ | ⟨w, hw, rfl⟩
  · exact mem_entities.2 (Or.inl ⟨k, nodes k hk, rfl⟩)
  · obtain ⟨v, hv, same⟩ := List.mem_map.1 (wires _ (List.mem_map_of_mem hw))
    obtain ⟨hhandle, hends⟩ := Prod.mk.inj same
    exact mem_entities.2 (Or.inr ⟨v, hv, by rw [hhandle, hends]⟩)

theorem entities_setToken (c : Contents) (k : Nat) (token : String) :
    (c.setToken k token).entities ⊆ c.entities := by
  refine entities_subset (fun _ hk => hk) fun w hw => ?_
  rwa [setToken, map_bare_writeToken] at hw

theorem entities_addNode (c : Contents) (k : Nat) (n : Node) :
    ({ c with nodes := c.nodes ++ [(k, n)] } : Contents).entities ⊆ .node k :: c.entities := by
  intro x hx
  rcases mem_entities.1 hx with ⟨j, hj, rfl⟩ | ⟨w, hw, rfl⟩
  · rw [Keyed.keys_append] at hj
    rcases List.mem_append.1 hj with old | new
    · exact List.mem_cons_of_mem _ (mem_entities.2 (Or.inl ⟨j, old, rfl⟩))
    · obtain rfl : j = k := by simpa [keys] using new
      exact List.mem_cons_self
  · exact List.mem_cons_of_mem _ (mem_entities.2 (Or.inr ⟨w, hw, rfl⟩))

theorem entities_addWire (c : Contents) (w : Wire) :
    ({ c with wires := c.wires ++ [w] } : Contents).entities
      ⊆ .wire w.handle w.ends :: c.entities := by
  intro x hx
  rcases mem_entities.1 hx with ⟨k, hk, rfl⟩ | ⟨v, hv, rfl⟩
  · exact List.mem_cons_of_mem _ (mem_entities.2 (Or.inl ⟨k, hk, rfl⟩))
  · rcases List.mem_append.1 hv with old | new
    · exact List.mem_cons_of_mem _ (mem_entities.2 (Or.inr ⟨v, old, rfl⟩))
    · rw [List.mem_singleton.1 new]
      exact List.mem_cons_self

end Contents

namespace History

theorem mem_changes {ch : Change} : ch ∈ h.changes ↔
    ∃ s, (s ∈ h.done ∨ s ∈ h.undone ∨ s ∈ h.sequences) ∧ ch ∈ s.changes := by
  simp only [changes, List.mem_flatMap, List.mem_append, or_assoc]

theorem mem_entities : x ∈ h.entities ↔ ∃ ch ∈ h.changes, x ∈ ch.entities := List.mem_flatMap

theorem changes_push (h : History) (s : Step) :
    ∀ ch ∈ (h.push s).changes, ch ∈ h.changes ∨ ch ∈ s.changes := by
  intro ch pushed
  obtain ⟨t, ht, hch⟩ := mem_changes.1 pushed
  rcases ht with ht | ht | ht
  · rcases List.mem_cons.1 (List.mem_of_mem_take ht) with same | ht
    · exact Or.inr (same ▸ hch)
    · exact Or.inl (mem_changes.2 ⟨t, Or.inl ht, hch⟩)
  · exact absurd ht List.not_mem_nil
  · exact Or.inl (mem_changes.2 ⟨t, Or.inr (Or.inr ht), hch⟩)

theorem changes_record (h : History) (cs : List Change) :
    ∀ ch ∈ (h.record cs).changes, ch ∈ h.changes ∨ ch ∈ cs := by
  intro ch hch
  unfold record at hch
  split at hch
  · exact Or.inl hch
  · split at hch
    · next s rest hs =>
      obtain ⟨t, ht, hch⟩ := mem_changes.1 hch
      rcases ht with ht | ht | ht
      · exact Or.inl (mem_changes.2 ⟨t, Or.inl ht, hch⟩)
      · exact Or.inl (mem_changes.2 ⟨t, Or.inr (Or.inl ht), hch⟩)
      · rcases List.mem_cons.1 ht with rfl | ht
        · refine (List.mem_append.1 hch).imp_left fun hch => ?_
          exact mem_changes.2 ⟨s, Or.inr (Or.inr (hs ▸ List.mem_cons_self)), hch⟩
        · exact Or.inl (mem_changes.2 ⟨t, Or.inr (Or.inr (hs ▸ List.mem_cons_of_mem _ ht)), hch⟩)
    · exact changes_push h _ ch hch

theorem changes_openSequence (h : History) (label : String) :
    (h.openSequence label).changes ⊆ h.changes := by
  intro ch hch
  obtain ⟨t, ht, hch⟩ := mem_changes.1 hch
  rcases ht with ht | ht | ht
  · exact mem_changes.2 ⟨t, Or.inl ht, hch⟩
  · exact mem_changes.2 ⟨t, Or.inr (Or.inl ht), hch⟩
  · rcases List.mem_cons.1 ht with rfl | ht
    · exact absurd hch List.not_mem_nil
    · exact mem_changes.2 ⟨t, Or.inr (Or.inr ht), hch⟩

theorem changes_closeSequence (h : History) : h.closeSequence.changes ⊆ h.changes := by
  have inner {s : Step} {rest : List Step} (hs : h.sequences = s :: rest) :
      ({ h with sequences := rest } : History).changes ⊆ h.changes := by
    intro ch hch
    obtain ⟨t, ht, hch⟩ := mem_changes.1 hch
    refine mem_changes.2 ⟨t, ?_, hch⟩
    exact ht.imp_right (Or.imp_right fun ht => hs ▸ List.mem_cons_of_mem _ ht)
  have own {s : Step} {rest : List Step} (hs : h.sequences = s :: rest) {ch : Change}
      (hch : ch ∈ s.changes) : ch ∈ h.changes :=
    mem_changes.2 ⟨s, Or.inr (Or.inr (hs ▸ List.mem_cons_self)), hch⟩
  unfold closeSequence
  split
  · exact List.Subset.refl _
  · next s rest hs =>
    dsimp only
    split
    · exact inner hs
    · next filled =>
      -- Handing the changes on is recording them in what is around the sequence.
      have recorded := changes_record { h with sequences := rest } s.changes
      rw [record, if_neg filled] at recorded
      split
      · next t rest' =>
        intro ch hch
        exact (recorded ch hch).elim (fun hch => inner hs hch) (own hs)
      · intro ch hch
        exact (changes_push _ s ch hch).elim (fun hch => inner hs hch) (own hs)

theorem inverse_mem_changes {s : Step} (known : s ∈ h.done ∨ s ∈ h.undone) {ch : Change}
    (hch : ch ∈ s.inverse.changes) : ch.inverse ∈ h.changes := by
  obtain ⟨made, hmade, rfl⟩ := List.mem_map.1 hch
  rw [made.inverse_inverse]
  exact mem_changes.2 ⟨s, known.imp_right Or.inl, hmade⟩

theorem changes_undo {s : Step} {rest : List Step} (hs : h.done = s :: rest) :
    ∀ ch ∈ ({ h with done := rest, undone := s.inverse :: h.undone } : History).changes,
      ch ∈ h.changes ∨ ch.inverse ∈ h.changes := by
  intro ch hch
  obtain ⟨t, ht, hch⟩ := mem_changes.1 hch
  rcases ht with ht | ht | ht
  · exact Or.inl (mem_changes.2 ⟨t, Or.inl (hs ▸ List.mem_cons_of_mem _ ht), hch⟩)
  · rcases List.mem_cons.1 ht with rfl | ht
    · exact Or.inr (inverse_mem_changes (Or.inl (hs ▸ List.mem_cons_self)) hch)
    · exact Or.inl (mem_changes.2 ⟨t, Or.inr (Or.inl ht), hch⟩)
  · exact Or.inl (mem_changes.2 ⟨t, Or.inr (Or.inr ht), hch⟩)

theorem changes_redo {s : Step} {rest : List Step} (hs : h.undone = s :: rest) :
    ∀ ch ∈ ({ h with undone := rest, done := s.inverse :: h.done } : History).changes,
      ch ∈ h.changes ∨ ch.inverse ∈ h.changes := by
  intro ch hch
  obtain ⟨t, ht, hch⟩ := mem_changes.1 hch
  rcases ht with ht | ht | ht
  · rcases List.mem_cons.1 ht with rfl | ht
    · exact Or.inr (inverse_mem_changes (Or.inr (hs ▸ List.mem_cons_self)) hch)
    · exact Or.inl (mem_changes.2 ⟨t, Or.inl ht, hch⟩)
  · exact Or.inl (mem_changes.2 ⟨t, Or.inr (Or.inl (hs ▸ List.mem_cons_of_mem _ ht)), hch⟩)
  · exact Or.inl (mem_changes.2 ⟨t, Or.inr (Or.inr ht), hch⟩)

end History

namespace Change

theorem entities_inverse (ch : Change) : ch.inverse.entities = ch.entities := by
  cases ch <;> rfl

theorem About.eq_of_mem {ch : Change} {y : Entity} (about : ch.About y) (hx : x ∈ ch.entities) :
    x = y := by
  cases about with
  | setBounds => exact absurd hx List.not_mem_nil
  | setToken => exact absurd hx List.not_mem_nil
  | _ => exact List.mem_singleton.1 hx

theorem nodup_revert (ch : Change) (nodup : (keys c.nodes).Nodup) :
    (keys (ch.revert c).nodes).Nodup := by
  cases ch with
  | addNode i h n => exact nodup.sublist (List.filter_sublist.map _)
  | removeNode i h n =>
    have rest : (keys (Keyed.remove c.nodes h)).Nodup := nodup.sublist (List.filter_sublist.map _)
    have absent : h ∉ keys (Keyed.remove c.nodes h) := fun hm => (Keyed.mem_keys_remove.1 hm).2 rfl
    have perm := List.perm_insertIdx (h, n) (Keyed.remove c.nodes h)
      (Nat.min_le_right i (Keyed.remove c.nodes h).length)
    exact (perm.map _).nodup_iff.2 (List.nodup_cons.2 ⟨absent, rest⟩)
  | setBounds h old new =>
    rw [revert, Contents.updateNode, Keyed.keys_update]
    exact nodup
  | addWire i w => exact nodup
  | removeWire i w => exact nodup
  | setToken h old new => exact nodup

theorem entities_revert (ch : Change) (c : Contents) :
    ∀ x ∈ (ch.revert c).entities, x ∈ c.entities ∨ x ∈ ch.entities := by
  cases ch with
  | addNode i h n =>
    have gone : (c.removeNode h).entities ⊆ c.entities :=
      Contents.entities_subset (fun k hk => (Keyed.mem_keys_remove.1 hk).1) fun _ hw => hw
    exact fun x hx => Or.inl (gone hx)
  | removeNode i h n =>
    have perm := List.perm_insertIdx (h, n) (Keyed.remove c.nodes h)
      (Nat.min_le_right i (Keyed.remove c.nodes h).length)
    intro x hx
    rcases Contents.mem_entities.1 hx with ⟨k, hk, rfl⟩ | ⟨w, hw, rfl⟩
    · rcases List.mem_cons.1 ((perm.map _).mem_iff.1 hk) with rfl | hk
      · exact Or.inr (List.mem_singleton_self _)
      · exact Or.inl (Contents.mem_entities.2 (Or.inl ⟨k, (Keyed.mem_keys_remove.1 hk).1, rfl⟩))
    · exact Or.inl (Contents.mem_entities.2 (Or.inr ⟨w, hw, rfl⟩))
  | setBounds h old new =>
    have kept : (c.updateNode h fun n => { n with bounds := old }).entities ⊆ c.entities :=
      Contents.entities_subset (fun k hk => by simpa [Contents.updateNode] using hk) fun _ hw => hw
    exact fun x hx => Or.inl (kept hx)
  | addWire i w =>
    have gone : (c.removeWire w.handle).entities ⊆ c.entities :=
      Contents.entities_subset (fun _ hk => hk) fun _ hv =>
        (List.filter_sublist.map _).subset hv
    exact fun x hx => Or.inl (gone hx)
  | removeWire i w =>
    have perm := List.perm_insertIdx w c.wires (Nat.min_le_right i c.wires.length)
    intro x hx
    rcases Contents.mem_entities.1 hx with ⟨k, hk, rfl⟩ | ⟨v, hv, rfl⟩
    · exact Or.inl (Contents.mem_entities.2 (Or.inl ⟨k, hk, rfl⟩))
    · rcases List.mem_cons.1 (perm.mem_iff.1 hv) with rfl | hv
      · exact Or.inr (List.mem_singleton_self _)
      · exact Or.inl (Contents.mem_entities.2 (Or.inr ⟨v, hv, rfl⟩))
  | setToken h old new => exact fun x hx => Or.inl (c.entities_setToken h old hx)

end Change

namespace Step

theorem nodup_revert (s : Step) (nodup : (keys c.nodes).Nodup) :
    (keys (s.revert c).nodes).Nodup := by
  rw [revert]
  refine List.foldrRecOn (motive := fun c : Contents => (keys c.nodes).Nodup) _ _ nodup ?_
  intro d hd ch _
  exact ch.nodup_revert hd

theorem entities_revert (s : Step) (c : Contents) :
    ∀ x ∈ (s.revert c).entities, x ∈ c.entities ∨ x ∈ s.changes.flatMap Change.entities := by
  rw [revert]
  refine List.foldrRecOn (motive := fun d : Contents => ∀ x ∈ d.entities,
    x ∈ c.entities ∨ x ∈ s.changes.flatMap Change.entities) _ _ (fun x hx => Or.inl hx) ?_
  intro d hd ch hch x hx
  rcases ch.entities_revert d x hx with hx | hx
  · exact hd x hx
  · exact Or.inr (List.mem_flatMap.2 ⟨ch, hch, hx⟩)

end Step

namespace Patch

theorem Follows.refl (bounded : p.Bounded) : p.Follows p :=
  ⟨bounded, Nat.le_refl _, fun _ hx => Or.inl hx⟩

theorem Follows.trans (h₁ : p.Follows q) (h₂ : q.Follows r) : p.Follows r where
  bounded := h₂.bounded
  next := Nat.le_trans h₁.next h₂.next
  entities x hx := by
    rcases h₂.entities x hx with hx | ⟨new, unique⟩
    · refine (h₁.entities x hx).imp_right fun ⟨new, unique⟩ => ⟨new, fun y hy same => ?_⟩
      rcases h₂.entities y hy with hy | ⟨newer, -⟩
      · exact unique y hy same
      · have below := h₁.bounded.below x hx
        omega
    · exact Or.inr ⟨Nat.le_trans h₁.next new, unique⟩

theorem Bounded.sound (bounded : p.Bounded) : p.Sound where
  nodup := bounded.nodup
  nodes_below h hh := bounded.below (.node h)
    (List.mem_append_left _ (Contents.mem_entities.2 (Or.inl ⟨h, hh, rfl⟩)))
  wires_below w hw := bounded.below (.wire w.handle w.ends)
    (List.mem_append_left _ (Contents.mem_entities.2 (Or.inr ⟨w, hw, rfl⟩)))

/-- What one call makes of a patch. It knows nothing more but at most one new thing, and what it
tells its history is about what it knows. -/
structure Evolves (new : Option Entity) (p q : Patch) : Prop where
  next : q.next = new.elim p.next fun _ => p.freshHandle + 1
  fresh : ∀ x, new = some x → x.handle = p.freshHandle
  owned : ∀ h e, new = some (.wire h e) → e.outletOwner ∈ keys p.nodes ∧ e.inletOwner ∈ keys p.nodes
  nodup : p.Bounded → (keys q.nodes).Nodup
  contents : ∀ x ∈ q.toContents.entities, x ∈ p.entities ∨ new = some x
  history : ∀ ch ∈ q.history.changes, ch ∈ p.history.changes ∨ ch.inverse ∈ p.history.changes ∨
    ∃ x, (x ∈ p.entities ∨ new = some x) ∧ ch.About x

variable {new : Option Entity}

theorem Evolves.entities (evolves : p.Evolves new q) :
    ∀ x ∈ q.entities, x ∈ p.entities ∨ new = some x := by
  intro x hx
  rcases List.mem_append.1 hx with hx | hx
  · exact evolves.contents x hx
  · obtain ⟨ch, hch, hx⟩ := History.mem_entities.1 hx
    rcases evolves.history ch hch with hch | hch | ⟨y, hy, about⟩
    · exact Or.inl (List.mem_append_right _ (History.mem_entities.2 ⟨ch, hch, hx⟩))
    · rw [← ch.entities_inverse] at hx
      exact Or.inl (List.mem_append_right _ (History.mem_entities.2 ⟨_, hch, hx⟩))
    · exact about.eq_of_mem hx ▸ hy

theorem Evolves.next_le (evolves : p.Evolves new q) : p.next ≤ q.next := by
  have low : p.next ≤ p.freshHandle := Nat.le_max_left _ _
  rw [evolves.next]
  cases new with
  | none => exact Nat.le_refl _
  | some x => exact Nat.le_succ_of_le low

theorem Evolves.fresh_lt (evolves : p.Evolves (some x) q) : p.next ≤ x.handle ∧ x.handle < q.next := by
  rw [evolves.next, evolves.fresh x rfl]
  exact ⟨Nat.le_max_left _ _, Nat.lt_succ_self _⟩

theorem Evolves.follows (evolves : p.Evolves new q) (bounded : p.Bounded) : p.Follows q := by
  have known := evolves.entities
  refine ⟨⟨evolves.nodup bounded, fun y hy => ?_⟩, evolves.next_le, fun y hy => ?_⟩
  · rcases known y hy with hy | rfl
    · exact Nat.lt_of_lt_of_le (bounded.below y hy) evolves.next_le
    · exact evolves.fresh_lt.2
  · refine (known y hy).imp_right fun hnew => ?_
    subst hnew
    refine ⟨evolves.fresh_lt.1, fun z hz same => ?_⟩
    rcases known z hz with hz | same'
    · exact absurd (bounded.below z hz) (Nat.not_lt.2 (same ▸ evolves.fresh_lt.1))
    · exact (Option.some.inj same').symm

theorem evolves_of (next : q.next = p.next) (nodup : (keys p.nodes).Nodup → (keys q.nodes).Nodup)
    (contents : q.toContents.entities ⊆ p.toContents.entities)
    (history : ∀ ch ∈ q.history.changes,
      ch ∈ p.history.changes ∨ ∃ x ∈ p.toContents.entities, ch.About x) : p.Evolves none q where
  next := next
  fresh := nofun
  owned := nofun
  nodup bounded := nodup bounded.nodup
  contents _ hx := Or.inl (List.mem_append_left _ (contents hx))
  history ch hch := (history ch hch).imp_right fun ⟨x, hx, about⟩ =>
    Or.inr ⟨x, Or.inl (List.mem_append_left _ hx), about⟩

theorem Evolves.refl (p : Patch) : p.Evolves none p :=
  evolves_of rfl id (List.Subset.refl _) fun _ hch => Or.inl hch

theorem evolves_record {d : Contents} {cs : List Change}
    (nodup : (keys p.nodes).Nodup → (keys d.nodes).Nodup)
    (contents : d.entities ⊆ p.toContents.entities)
    (known : ∀ ch ∈ cs, ∃ x ∈ p.toContents.entities, ch.About x) :
    p.Evolves none (({ p with toContents := d } : Patch).record cs) :=
  evolves_of rfl nodup contents fun ch hch => (p.history.changes_record cs ch hch).imp_right (known ch)

theorem evolves_fresh (fresh : x.handle = p.freshHandle)
    (owned : ∀ h e, x = .wire h e → e.outletOwner ∈ keys p.nodes ∧ e.inletOwner ∈ keys p.nodes)
    (next : q.next = p.freshHandle + 1) (nodup : p.Bounded → (keys q.nodes).Nodup)
    (contents : q.toContents.entities ⊆ x :: p.toContents.entities)
    (history : ∀ ch ∈ q.history.changes, ch ∈ p.history.changes ∨ ch.About x) :
    p.Evolves (some x) q where
  next := next
  fresh _ same := Option.some.inj same ▸ fresh
  owned h e same := owned h e (Option.some.inj same)
  nodup := nodup
  contents _ hy := (List.mem_cons.1 (contents hy)).symm.imp (List.mem_append_left _)
    fun same => congrArg some same.symm
  history ch hch := (history ch hch).imp_right fun about => Or.inr ⟨x, Or.inr rfl, about⟩

end Patch

end Patchbay
