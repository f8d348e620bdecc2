import Patchbay.Proofs.Joined
import Patchbay.Proofs.Retouch

/-!
# Patches as graphs

A patch that starts empty is a graph, whatever is done to it but undo and redo: its wires go from
outlets to inlets that are there, no two of them join the same jacks, and everything in it has a
handle of its own.
-/

namespace Patchbay

open Keyed (keys)

namespace Contents

variable {c d : Contents} {e : Ends} {h : Nat}

structure Plugs (c : Contents) (e : Ends) : Prop where
  outlet : ∃ n, c.node? e.outletOwner = some n ∧ e.outlet < n.outlets.length
  inlet : ∃ n, c.node? e.inletOwner = some n ∧ e.inlet < n.inlets.length

/-- What makes the wires the edges of a graph on the nodes. -/
structure IsGraph (c : Contents) : Prop where
  plugged : ∀ w ∈ c.wires, c.Plugs w.ends
  single : (c.wires.map (·.ends)).Nodup
  handles : (keys c.nodes ++ c.wires.map (·.handle)).Nodup

theorem IsGraph.nodup (graph : c.IsGraph) : (keys c.nodes).Nodup :=
  (List.nodup_append'.1 graph.handles).1

theorem isGraph_empty : IsGraph {} := ⟨nofun, List.nodup_nil, List.nodup_nil⟩

theorem Plugs.of_sameJacks (plugs : c.Plugs e) (jacks : c.SameJacks d e) : d.Plugs e := by
  obtain ⟨⟨n, hn, hout⟩, m, hm, hin⟩ := plugs
  obtain ⟨outlet, inlet⟩ := jacks
  rw [hn] at outlet
  rw [hm] at inlet
  obtain ⟨n', hn', outlets⟩ := Option.map_eq_some_iff.1 outlet
  obtain ⟨m', hm', inlets⟩ := Option.map_eq_some_iff.1 inlet
  have outlets : n'.outlets = n.outlets := outlets
  have inlets : m'.inlets = m.inlets := inlets
  exact ⟨⟨n', hn', outlets ▸ hout⟩, m', hm', inlets ▸ hin⟩

theorem IsGraph.fewer (graph : c.IsGraph) (nodup : (keys d.nodes).Nodup)
    (nodes : ∀ k ∈ keys d.nodes, k ∈ keys c.nodes)
    (wires : (d.wires.map Wire.bare).Sublist (c.wires.map Wire.bare))
    (stay : ∀ w ∈ d.wires, c.Plugs w.ends → d.Plugs w.ends) : d.IsGraph := by
  have handles := wires.map Prod.fst
  have ends := wires.map Prod.snd
  simp only [List.map_map] at handles ends
  obtain ⟨-, apart, disjoint⟩ := List.nodup_append'.1 graph.handles
  refine ⟨fun w hw => stay w hw ?_, graph.single.sublist ends, List.nodup_append'.2
    ⟨nodup, apart.sublist handles, fun k hk hk' => disjoint (nodes k hk) (handles.subset hk')⟩⟩
  obtain ⟨v, hv, same⟩ := List.mem_map.1 (ends.subset (List.mem_map_of_mem hw))
  have same : v.ends = w.ends := same
  exact same ▸ graph.plugged v hv

theorem node?_addNode (n : Node) {k : Nat} {m : Node} (there : c.node? k = some m) :
    ({ c with nodes := c.nodes ++ [(h, n)] } : Contents).node? k = some m := by
  rw [node?, Keyed.get?_append, ← node?, there, Option.some_or]

theorem node?_updateNode (f : Node → Node) {k : Nat} {n : Node} (there : c.node? k = some n) :
    (c.updateNode h f).node? k = some (if k = h then f n else n) := by
  rw [node?] at there
  by_cases self : k = h
  · subst self
    rw [node?, updateNode, Keyed.get?_update_self, there, if_pos rfl, Option.map_some]
  · rw [node?, updateNode, Keyed.get?_update_ne self, there, if_neg self]

theorem IsGraph.addNode (graph : c.IsGraph)
    (fresh : h ∉ keys c.nodes ++ c.wires.map (·.handle)) (n : Node) :
    ({ c with nodes := c.nodes ++ [(h, n)] } : Contents).IsGraph := by
  refine ⟨fun w hw => ?_, graph.single, ?_⟩
  · obtain ⟨⟨m, hm, hout⟩, m', hm', hin⟩ := graph.plugged w hw
    exact ⟨⟨m, node?_addNode n hm, hout⟩, m', node?_addNode n hm', hin⟩
  · have added := List.nodup_cons.2 ⟨fresh, graph.handles⟩
    refine (List.Perm.nodup_iff ?_).1 added
    rw [Keyed.keys_append, List.append_assoc]
    exact List.perm_middle.symm

theorem IsGraph.addWire (graph : c.IsGraph)
    (fresh : h ∉ keys c.nodes ++ c.wires.map (·.handle)) (plugs : c.Plugs e)
    (free : ∀ w ∈ c.wires, w.ends ≠ e) (token : String) :
    ({ c with wires := c.wires ++ [⟨h, e, token⟩] } : Contents).IsGraph := by
  refine ⟨fun w hw => ?_, ?_, ?_⟩
  · refine Plugs.of_sameJacks (c := c) ?_ ⟨rfl, rfl⟩
    rcases List.mem_append.1 hw with old | new
    · exact graph.plugged w old
    · exact List.mem_singleton.1 new ▸ plugs
  · rw [List.map_append]
    refine graph.single.append (List.nodup_singleton e) fun e' old new => ?_
    obtain ⟨w, hw, rfl⟩ := List.mem_map.1 old
    exact free w hw (List.mem_singleton.1 new)
  · rw [List.map_append, ← List.append_assoc]
    refine graph.handles.append (List.nodup_singleton h) fun k old new => ?_
    obtain rfl : k = h := List.mem_singleton.1 new
    exact fresh old

end Contents

namespace Patch

variable {p q : Patch} {e : Ends} {h : Nat}

theorem Bounded.fresh (bounded : p.Bounded) :
    p.freshHandle ∉ keys p.nodes ++ p.wires.map (·.handle) := by
  intro used
  rcases List.mem_append.1 used with node | wire
  · exact Nat.lt_irrefl _ (lt_freshHandle (bounded.sound.nodes_below _ node))
  · obtain ⟨w, hw, same⟩ := List.mem_map.1 wire
    exact Nat.lt_irrefl _ (same ▸ lt_freshHandle (bounded.sound.wires_below w hw))

theorem isGraph_insertWire (bounded : p.Bounded) (graph : p.IsGraph)
    (made : p.insertWire e = .ok (h, q)) : q.IsGraph := by
  unfold insertWire at made
  split at made
  · exact absurd made (by simp)
  · next fits =>
    obtain ⟨rfl, rfl⟩ := Prod.mk.inj (Except.ok.inj made)
    obtain ⟨⟨n, m, source, sink, outside, inside, -⟩, free⟩ := fits_of_connectionFault fits
    exact graph.addWire bounded.fresh ⟨⟨n, source, outside⟩, m, sink, inside⟩ free ""

theorem isGraph_connect (bounded : p.Bounded) (graph : p.IsGraph)
    (made : p.connect e = .ok (h, q)) : q.IsGraph := by
  unfold connect at made
  split at made
  · exact absurd made (by simp)
  · next added =>
    obtain ⟨rfl, rfl⟩ := Prod.mk.inj (Except.ok.inj made)
    exact (isGraph_insertWire bounded graph added :)

theorem Rearranged.isGraph (rearranged : p.Rearranged q) (graph : p.IsGraph) : q.IsGraph := by
  have nodes := rearranged.keys
  have wires := rearranged.wires
  refine graph.fewer (nodes ▸ graph.nodup) (fun k hk => nodes ▸ hk) (wires ▸ List.Sublist.refl _)
    fun w _ plugs => plugs.of_sameJacks ?_
  exact ⟨rearranged.signals _ _, rearranged.signals _ _⟩

theorem isGraph_setToken (graph : p.IsGraph) {token : String} (made : p.setToken h token = .ok q) :
    q.IsGraph := by
  unfold setToken at made
  split at made
  · exact absurd made (by simp)
  · split at made
    · exact Except.ok.inj made ▸ graph
    · obtain rfl := Except.ok.inj made
      have same := Contents.map_bare_writeToken h token p.wires
      exact graph.fewer graph.nodup (fun _ hk => hk) (same ▸ List.Sublist.refl _)
        fun w _ plugs => plugs.of_sameJacks ⟨rfl, rfl⟩

theorem isGraph_disconnect (graph : p.IsGraph) {token : String}
    (made : p.disconnect e token = .ok q) : q.IsGraph := by
  unfold disconnect at made
  split at made
  · obtain rfl := Except.ok.inj made
    exact graph.fewer graph.nodup (fun _ hk => hk) ((List.eraseIdx_sublist _ _).map _)
      fun w _ plugs => plugs.of_sameJacks ⟨rfl, rfl⟩
  · exact absurd made (by simp)

/-- The wires at the nodes go before them, so the wires that are left lose no node. -/
theorem isGraph_removeNodes (graph : p.IsGraph) {hs : List Nat}
    (made : p.removeNodes hs = .ok q) : q.IsGraph := by
  unfold removeNodes at made
  split at made
  · exact absurd made (by simp)
  · obtain rfl := Except.ok.inj made
    have nodes := (takeOut_sublist hs p.nodes).map Prod.fst
    refine graph.fewer (graph.nodup.sublist nodes) (fun _ hk => nodes.subset hk)
      ((detach_sublist hs 0 p.wires).map _) fun w hw plugs => plugs.of_sameJacks ?_
    obtain ⟨inlet, outlet⟩ := apart_of_mem_detach hw
    exact ⟨congrArg _ (get?_takeOut outlet p.nodes), congrArg _ (get?_takeOut inlet p.nodes)⟩

theorem isGraph_setJacks (graph : p.IsGraph) (h : Nat) (inlets outlets : List Bool) :
    (p.setJacks h inlets outlets).IsGraph := by
  unfold setJacks
  split
  case isFalse => exact graph
  case isTrue there =>
    have same : keys (p.updateNode h fun n => { n with inlets := inlets, outlets := outlets }).nodes
        = keys p.nodes := by simp [Contents.updateNode]
    refine graph.fewer (same ▸ graph.nodup) (fun k hk => same ▸ hk) (List.filter_sublist.map _)
      fun w hw plugs => ?_
    have fits := (List.mem_filter.1 hw).2
    simp only [Bool.not_eq_true', Bool.or_eq_false_iff, Bool.and_eq_false_imp, beq_iff_eq,
      decide_eq_false_iff_not, Nat.not_le] at fits
    obtain ⟨⟨n, hn, hout⟩, m, hm, hin⟩ := plugs
    have found {k : Nat} {n : Node} (there : p.node? k = some n) :=
      Contents.node?_updateNode (h := h)
        (fun n => { n with inlets := inlets, outlets := outlets }) there
    refine ⟨⟨_, found hn, ?_⟩, _, found hm, ?_⟩
    · split
      · next owner => exact fits.2 owner
      · exact hout
    · split
      · next owner => exact fits.1 owner
      · exact hin

theorem isGraph_swap (graph : p.IsGraph) (i j : Nat) : (p.swap i j).IsGraph := by
  unfold swap
  split
  · next a b hi hj =>
    obtain ⟨hlt, rfl⟩ := List.getElem?_eq_some_iff.1 hi
    obtain ⟨hlt', rfl⟩ := List.getElem?_eq_some_iff.1 hj
    have perm : ((p.nodes.set i p.nodes[j]).set j p.nodes[i]).Perm p.nodes :=
      List.set_set_perm hlt hlt'
    refine graph.fewer ((perm.map _).nodup_iff.2 graph.nodup) (fun k hk => (perm.map _).mem_iff.1 hk)
      (List.Sublist.refl _) fun w _ plugs => plugs.of_sameJacks ?_
    exact ⟨congrArg _ (Keyed.get?_perm perm graph.nodup _),
      congrArg _ (Keyed.get?_perm perm graph.nodup _)⟩
  · exact graph

end Patch

theorem Operation.isGraph {p q : Patch} (o : Operation) (bounded : p.Bounded) (graph : p.IsGraph)
    (made : o.run p = .ok q) : q.IsGraph := by
  cases o with
  | createNode text position =>
    obtain rfl := Except.ok.inj made
    exact graph.addNode bounded.fresh (Patch.newNode text position)
  | moveNode h delta => exact (Patch.rearranged_moveNode made).isGraph graph
  | moveNodeTo h position => exact (Patch.rearranged_moveNodeTo made).isGraph graph
  | setBounds h bounds => exact (Patch.rearranged_setBounds made).isGraph graph
  | removeNodes hs => exact Patch.isGraph_removeNodes graph made
  | connect e =>
    cases hc : p.connect e with
    | error fault => simp [run, hc, Except.map] at made
    | ok result =>
      obtain rfl : result.2 = q := by simpa [run, hc, Except.map] using made
      exact Patch.isGraph_connect bounded graph hc
  | disconnect e token => exact Patch.isGraph_disconnect graph made
  | setToken h token => exact Patch.isGraph_setToken graph made

namespace Patch

/-- What goes forward: all that can happen to a patch but undo and redo. -/
def Mutation.Forward (m : Mutation) : Prop := m ≠ .undo ∧ m ≠ .redo

instance (m : Mutation) : Decidable m.Forward := inferInstanceAs (Decidable (_ ∧ _))

theorem Mutation.isGraph {p : Patch} {m : Mutation} (forward : m.Forward) (bounded : p.Bounded)
    (graph : p.IsGraph) : (m.run p).IsGraph := by
  cases m with
  | edit o =>
    cases made : o.run p with
    | error e => simpa [run, made, Except.toOption] using graph
    | ok q => simpa [run, made, Except.toOption] using o.isGraph bounded graph made
  | undo => exact absurd rfl forward.1
  | redo => exact absurd rfl forward.2
  | openSequence label => exact graph
  | closeSequence => exact graph
  | setJacks h inlets outlets => exact isGraph_setJacks graph h inlets outlets
  | swap i j => exact isGraph_swap graph i j
  | insertNode n => exact graph.addNode bounded.fresh n
  | insertWire e =>
    cases made : p.insertWire e with
    | error fault => simpa [run, made, Except.toOption] using graph
    | ok result => simpa [run, made, Except.toOption] using isGraph_insertWire bounded graph made
  | deliver => exact graph

def after (p : Patch) (ms : List Mutation) : Patch := ms.foldl (fun q m => m.run q) p

theorem isGraph_after {p : Patch} (bounded : p.Bounded) (graph : p.IsGraph) {ms : List Mutation}
    (forward : ∀ m ∈ ms, m.Forward) : (p.after ms).IsGraph := by
  induction ms generalizing p with
  | nil => exact graph
  | cons m ms ih =>
    obtain ⟨first, rest⟩ := List.forall_mem_cons.1 forward
    exact ih (m.follows bounded).bounded (m.isGraph first bounded graph) rest

/-- Whatever is done to an empty patch but undo and redo, in any order and with any arguments, and
whether it is accepted or refused. -/
theorem isGraph_of_edits (ms : List Mutation) (forward : ∀ m ∈ ms, m.Forward) :
    (after {} ms).IsGraph :=
  isGraph_after Loaded.empty.bounded Contents.isGraph_empty forward

def ring : List Mutation :=
  [.edit (.createNode "+ 1" ⟨0, 0⟩), .insertNode (newNode "t b" ⟨0, 50⟩),
    .edit (.connect ⟨1, 0, 2, 0⟩), .insertWire ⟨2, 0, 1, 0⟩]

/-- Joining the same jacks again is refused, a wire goes with its jack, and a node that is named
twice goes once. -/
def reworked : List Mutation :=
  ring ++ [.edit (.connect ⟨1, 0, 2, 0⟩), .setJacks 2 [] [false], .swap 0 1,
    .edit (.createNode "print" ⟨9, 9⟩), .edit (.connect ⟨2, 0, 5, 0⟩), .edit (.removeNodes [1, 1])]

theorem isGraph_reworked : (∀ m ∈ reworked, m.Forward) ∧ (after {} reworked).IsGraph :=
  have forward : ∀ m ∈ reworked, m.Forward := by decide
  ⟨forward, isGraph_of_edits reworked forward⟩

/-- Undo brings a wire back to an inlet that is gone by then. -/
example : ¬(after {} (ring ++ [.edit (.disconnect ⟨1, 0, 2, 0⟩ none), .setJacks 2 [] [false],
    .undo])).IsGraph := by
  intro graph
  obtain ⟨-, n, hn, inside⟩ := graph.plugged ⟨3, ⟨1, 0, 2, 0⟩, ""⟩ (by decide)
  obtain rfl : (⟨"t b", ⟨0, 50, 31, 20⟩, [], [false]⟩ : Node) = n := by
    exact Option.some.inj hn
  exact absurd inside (by decide)

end Patch

end Patchbay
