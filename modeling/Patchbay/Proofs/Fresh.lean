import Patchbay.Proofs.Graph

/-!
# Handles that are given out

The next handle of a patch is only ever counted up, and it is past all that the patch and its
history name. So a handle that is given out is not in use, will not come back with an undo or a
redo, and was not given out before.
-/

namespace Patchbay

open Keyed (keys)

/-- The handles that a node or a wire is told by, those of the owners of a wire among them or
not. -/
def Entity.names (owners : Bool) : Entity → List Nat
  | node h => [h]
  | wire h e => if owners then [h, e.outletOwner, e.inletOwner] else [h]

def Change.names (owners : Bool) : Change → List Nat
  | addNode _ h _ | removeNode _ h _ => (Entity.node h).names owners
  | addWire _ w | removeWire _ w => (Entity.wire w.handle w.ends).names owners
  | setBounds h _ _ | setToken h _ _ => [h]

variable {owners : Bool} {h k : Nat}

theorem Entity.mem_names_wire {e : Ends} : k ∈ (wire h e).names owners ↔
    k = h ∨ owners = true ∧ (k = e.outletOwner ∨ k = e.inletOwner) := by
  cases owners <;> simp [names]

namespace Change

theorem names_inverse (ch : Change) : ch.inverse.names owners = ch.names owners := by
  cases ch <;> rfl

theorem names_of_mem_entities (ch : Change) {x : Entity} (hx : x ∈ ch.entities) :
    x.names owners ⊆ ch.names owners := by
  cases ch with
  | setBounds h old new => exact absurd hx List.not_mem_nil
  | setToken h old new => exact absurd hx List.not_mem_nil
  | _ => exact List.mem_singleton.1 hx ▸ List.Subset.refl _

theorem About.names_subset {ch : Change} {x : Entity} (about : ch.About x) :
    ch.names owners ⊆ x.names owners := by
  cases about with
  | setToken =>
    intro k hk
    exact Entity.mem_names_wire.2 (Or.inl (List.mem_singleton.1 hk))
  | _ => exact List.Subset.refl _

end Change

namespace Patch

variable {p q : Patch} {new : Option Entity}

def names (owners : Bool) (p : Patch) : List Nat :=
  p.toContents.entities.flatMap (Entity.names owners)
    ++ p.history.changes.flatMap (Change.names owners)

theorem names_entity {x : Entity} (there : x ∈ p.toContents.entities)
    (hk : k ∈ x.names owners) : k ∈ p.names owners :=
  List.mem_append_left _ (List.mem_flatMap.2 ⟨x, there, hk⟩)

theorem names_change {ch : Change} (there : ch ∈ p.history.changes)
    (hk : k ∈ ch.names owners) : k ∈ p.names owners :=
  List.mem_append_right _ (List.mem_flatMap.2 ⟨ch, there, hk⟩)

theorem names_node (there : h ∈ keys p.nodes) : h ∈ p.names owners :=
  names_entity (Contents.mem_entities.2 (Or.inl ⟨h, there, rfl⟩)) (List.mem_singleton_self h)

theorem names_of_mem_entities {x : Entity} (there : x ∈ p.entities)
    (hk : k ∈ x.names owners) : k ∈ p.names owners := by
  rcases List.mem_append.1 there with there | there
  · exact names_entity there hk
  · obtain ⟨ch, hch, hx⟩ := History.mem_entities.1 there
    exact names_change hch (ch.names_of_mem_entities hx hk)

theorem Evolves.names (evolves : p.Evolves new q) (hk : k ∈ q.names owners) :
    k ∈ p.names owners ∨ new.map Entity.handle = some k := by
  have known {x : Entity} (hx : x ∈ p.entities ∨ new = some x) {k : Nat}
      (hk : k ∈ x.names owners) : k ∈ p.names owners ∨ new.map Entity.handle = some k := by
    rcases hx with hx | rfl
    · exact Or.inl (names_of_mem_entities hx hk)
    · cases x with
      | node h => exact Or.inr (congrArg some (List.mem_singleton.1 hk).symm)
      | wire h e =>
        obtain ⟨outlet, inlet⟩ := evolves.owned h e rfl
        rcases Entity.mem_names_wire.1 hk with rfl | ⟨-, rfl | rfl⟩
        · exact Or.inr rfl
        · exact Or.inl (names_node outlet)
        · exact Or.inl (names_node inlet)
  rcases List.mem_append.1 hk with hk | hk
  · obtain ⟨x, hx, hk⟩ := List.mem_flatMap.1 hk
    exact known (evolves.contents x hx) hk
  · obtain ⟨ch, hch, hk⟩ := List.mem_flatMap.1 hk
    rcases evolves.history ch hch with hch | hch | ⟨x, hx, about⟩
    · exact Or.inl (names_change hch hk)
    · exact Or.inl (names_change hch (ch.names_inverse ▸ hk))
    · exact known hx (about.names_subset hk)

namespace Mutation

variable {m : Mutation}

theorem next_le (m : Mutation) (p : Patch) : p.next ≤ (m.run p).next := by
  obtain ⟨new, evolves, -⟩ := m.evolves p
  exact evolves.next_le

theorem names (hk : k ∈ (m.run p).names owners) : k ∈ p.names owners ∨ m.handle? p = some k := by
  obtain ⟨new, evolves, answer⟩ := m.evolves p
  exact answer ▸ evolves.names hk

theorem handle?_lt (gives : m.handle? p = some h) : p.next ≤ h ∧ h < (m.run p).next := by
  obtain ⟨new, evolves, answer⟩ := m.evolves p
  obtain ⟨x, rfl, rfl⟩ := Option.map_eq_some_iff.1 (answer.trans gives)
  exact evolves.fresh_lt

end Mutation

/-- All handles that are given out while one thing after the other happens to a patch. -/
def given (p : Patch) : List Mutation → List Nat
  | [] => []
  | m :: ms => (m.handle? p).toList ++ (m.run p).given ms

theorem below_after (below : ∀ k ∈ p.names owners, k < p.next) (ms : List Mutation) :
    p.next ≤ (p.after ms).next ∧ (∀ k ∈ (p.after ms).names owners, k < (p.after ms).next) ∧
      ∀ k ∈ p.given ms, k < (p.after ms).next := by
  induction ms generalizing p with
  | nil => exact ⟨Nat.le_refl _, below, nofun⟩
  | cons m ms ih =>
    have below' : ∀ k ∈ (m.run p).names owners, k < (m.run p).next := by
      intro k hk
      rcases Mutation.names hk with old | new
      · exact Nat.lt_of_lt_of_le (below k old) (m.next_le p)
      · exact (Mutation.handle?_lt new).2
    obtain ⟨later, named, rest⟩ := ih below'
    refine ⟨Nat.le_trans (m.next_le p) later, named, fun k hk => ?_⟩
    rcases List.mem_append.1 hk with first | hk
    · exact Nat.lt_of_lt_of_le (Mutation.handle?_lt (Option.mem_toList.1 first)).2 later
    · exact rest k hk

theorem Loaded.below {p : Patch} (loaded : p.Loaded) : ∀ k ∈ p.names false, k < p.next := by
  intro k hk
  rcases List.mem_append.1 hk with hk | hk
  · obtain ⟨x, hx, hk⟩ := List.mem_flatMap.1 hk
    have same : k = x.handle := by
      cases x <;> exact List.mem_singleton.1 hk
    exact same ▸ loaded.bounded.below x (List.mem_append_left _ hx)
  · rw [loaded.history] at hk
    exact absurd hk List.not_mem_nil

theorem names_of_owned
    (owned : ∀ w ∈ p.wires, w.ends.outletOwner ∈ keys p.nodes ∧ w.ends.inletOwner ∈ keys p.nodes)
    (blank : p.history = {}) (hk : k ∈ p.names true) : k ∈ p.names false := by
  rcases List.mem_append.1 hk with hk | hk
  · obtain ⟨x, hx, hk⟩ := List.mem_flatMap.1 hk
    rcases Contents.mem_entities.1 hx with ⟨h, hh, rfl⟩ | ⟨w, hw, rfl⟩
    · exact names_entity hx hk
    · obtain ⟨outlet, inlet⟩ := owned w hw
      rcases Entity.mem_names_wire.1 hk with rfl | ⟨-, rfl | rfl⟩
      · exact names_entity hx (Entity.mem_names_wire.2 (Or.inl rfl))
      · exact names_node outlet
      · exact names_node inlet
  · rw [blank] at hk
    exact absurd hk List.not_mem_nil

/-- Whatever is done to a patch that starts empty or is read from a text, the handle that a call
answers with is that of no node and no wire which the patch holds, it is in no command that can be
undone or redone nor in one of an open sequence, and it was not given out before. It is not that of
an owner of any such wire either, but for the wires of a text that name nodes which the text does
not have. Handles are counted without a bound here: with 64 bits the same is true up to the first
handle that does not fit. -/
theorem handle_not_reused (p : Patch) (loaded : p.Loaded) (ms : List Mutation) (m : Mutation)
    (h : Nat) (gives : m.handle? (p.after ms) = some h) :
    h ∉ (p.after ms).names false ∧ h ∉ p.given ms ∧
      ((∀ w ∈ p.wires, w.ends.outletOwner ∈ keys p.nodes ∧ w.ends.inletOwner ∈ keys p.nodes) →
        h ∉ (p.after ms).names true) := by
  have next := (Mutation.handle?_lt gives).1
  obtain ⟨-, named, given⟩ := below_after loaded.below ms
  refine ⟨fun used => ?_, fun used => ?_, fun owned used => ?_⟩
  · exact Nat.not_lt.2 next (named h used)
  · exact Nat.not_lt.2 next (given h used)
  · have below : ∀ k ∈ p.names true, k < p.next := fun k hk =>
      loaded.below k (names_of_owned owned loaded.history hk)
    exact Nat.not_lt.2 next ((below_after below ms).2.1 h used)

/-- A node goes and comes back, and a sequence is undone and so is what was before it. -/
def backAndForth : List Mutation :=
  ring ++ [.edit (.removeNodes [1]), .undo, .openSequence "Cut",
    .edit (.disconnect ⟨1, 0, 2, 0⟩ none), .edit (.moveNode 2 ⟨5, 5⟩), .closeSequence, .undo, .undo]

theorem handle_not_reused_backAndForth :
    Loaded {} ∧ (Mutation.insertNode default).handle? (after {} backAndForth) = some 5 ∧
      given {} backAndForth = [1, 2, 3, 4] ∧ 5 ∉ (after {} backAndForth).names false ∧
      5 ∉ given {} backAndForth ∧ 5 ∉ (after {} backAndForth).names true := by
  have gives : (Mutation.insertNode default).handle? (after {} backAndForth) = some 5 := by decide
  obtain ⟨named, given, owned⟩ :=
    handle_not_reused {} .empty backAndForth (.insertNode default) 5 gives
  exact ⟨.empty, gives, by decide, named, given, owned nofun⟩

end Patch

end Patchbay
