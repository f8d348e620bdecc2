import Patchbay.Proofs.Drawing
import Patchbay.Proofs.Mutation
import Patchbay.Proofs.Passes

/-!
# What keeps its identity

Whatever a scene is reconciled with, the box of a node that is still listed stays under its key with
its marks, and so does the cable of a wire whose ends stay. A cable that has to go to other ends is
replaced in its place, and nothing changes its place among the others. What comes and goes is what
the report says.
-/

namespace Patchbay

open Keyed (keys)

/-- What a box keeps while it is brought up to date. -/
structure Box.Endures (a b : Box) : Prop where
  handle : b.handle = a.handle
  selected : b.selected = a.selected
  home : b.home = a.home
  targeted : ∀ side i p q, a.jack? side i = some p → b.jack? side i = some q →
    q.targeted = p.targeted

namespace Jack

theorem targeted_fit {side : Side} {ps : List Jack} {fs : List Bool} {i : Nat} {p q : Jack}
    (old : ps[i]? = some p) (new : (fit side ps fs)[i]? = some q) : q.targeted = p.targeted := by
  rw [getElem?_fit, old] at new
  obtain ⟨f, -, rfl⟩ := Option.map_eq_some_iff.1 new
  rfl

theorem targeted_place {l : Layout} {shown : Bool} {ps : List Jack} {i : Nat} {q : Jack}
    (new : (place l shown ps)[i]? = some q) : ∃ p, ps[i]? = some p ∧ q.targeted = p.targeted := by
  rw [place, List.getElem?_map] at new
  obtain ⟨p, hp, rfl⟩ := Option.map_eq_some_iff.1 new
  exact ⟨p, hp, rfl⟩

end Jack

namespace Box

variable {b b' : Box} {info : NodeInfo} {i j : Nat}

theorem Endures.refl (b : Box) : b.Endures b where
  handle := rfl
  selected := rfl
  home := rfl
  targeted side i p q hp hq := by
    obtain rfl : p = q := Option.some.inj (hp.symm.trans hq)
    rfl

theorem jacks_renew (b : Box) (info : NodeInfo) (i : Nat) (side : Side) :
    (b.renew info i).jacks side = Jack.place (b.renew info i).layout (b.renew info i).widget.showsJacks
      (Jack.fit side (b.group side) (info.signals side)) := by
  have fitted := jacks_resizeGroups (b.dress info) info.inlets info.outlets side
  have laid := jacks_layoutJacks ((b.dress info).resizeGroups info.inlets info.outlets) side
  rw [fitted] at laid
  cases side <;> exact laid

theorem endures_renew (b : Box) (info : NodeInfo) (i : Nat) : b.Endures (b.renew info i) where
  handle := rfl
  selected := rfl
  home := rfl
  targeted side k p q hp hq := by
    have group : (b.group side)[k]? = some p := by
      rw [jack?_eq, jacks, List.getElem?_take] at hp
      exact (Option.ite_none_right_eq_some.1 hp).2
    rw [jack?_eq, jacks_renew] at hq
    obtain ⟨r, hr, same⟩ := Jack.targeted_place hq
    exact same.trans (Jack.targeted_fit group hr)

theorem Follows.endures {l : Listing} (follows : b.Follows l b') : b.Endures b' := by
  rcases follows with rfl | ⟨h, info, i, -, -, rfl⟩
  · exact .refl _
  · exact b.endures_renew info i

end Box

/-- What a cable keeps while its wire goes between the same jacks. -/
structure Cable.Endures (c d : Cable) : Prop where
  handle : d.handle = c.handle
  outlet : d.outlet = c.outlet
  inlet : d.inlet = c.inlet
  selected : d.selected = c.selected
  hovered : d.hovered = c.hovered
  unsaved : d.unsaved = c.unsaved

namespace Cable

theorem Endures.refl (c : Cable) : c.Endures c := ⟨rfl, rfl, rfl, rfl, rfl, rfl⟩

theorem Endures.trans {c d e : Cable} (first : c.Endures d) (second : d.Endures e) :
    c.Endures e where
  handle := second.handle.trans first.handle
  outlet := second.outlet.trans first.outlet
  inlet := second.inlet.trans first.inlet
  selected := second.selected.trans first.selected
  hovered := second.hovered.trans first.hovered
  unsaved := second.unsaved.trans first.unsaved

theorem endures_refresh (c : Cable) (token : String) (start stop : Point) :
    c.Endures (Scene.refreshCable c token start stop) := by
  unfold Scene.refreshCable
  split
  · exact ⟨rfl, rfl, rfl, rfl, rfl, rfl⟩
  · exact ⟨rfl, rfl, rfl, rfl, rfl, rfl⟩

end Cable

namespace Scene

variable {l : Listing} {s t u : Scene} {owner : Nat → Option Nat} {arena : Arena Box} {i : Nat}
  {e : WireEntry} {es : List WireEntry} {x y : Nat × Cable}

/-! ## Counting -/

/-- What a scene has gained and lost since it was `s` is what the report says. -/
structure Balances (s : Scene) (state : Scene × SyncReport) : Prop where
  boxes : state.1.boxes.length + state.2.boxesRemoved = s.boxes.length + state.2.boxesAdded
  cables : state.1.cables.length + state.2.cablesRemoved = s.cables.length + state.2.cablesAdded

theorem Balances.purgeCables {state : Scene × SyncReport} (balances : Balances s state)
    (keep : Scene → Cable → Bool) : Balances s (purgeCables keep state) := by
  obtain ⟨t, report⟩ := state
  obtain ⟨boxes, cables⟩ := balances
  refine ⟨?_, ?_⟩
  · have same : (t.retainCables (keep t)).1.boxes = t.boxes :=
      boxes_congr (boxArena_keepCables t (keep t))
    simp only [Scene.purgeCables, same]
    exact boxes
  · have counted := length_keepCables t (keep t)
    simp only [Scene.purgeCables]
    simp only [keepCables] at counted
    dsimp only at cables
    omega

theorem foldl_purgeBox (ks : List Nat) (t : Scene) (report : SyncReport) :
    ks.foldl purgeBox (t, report)
      = (ks.foldl removeBox t, { report with boxesRemoved := report.boxesRemoved + ks.length }) := by
  induction ks generalizing t report with
  | nil => rfl
  | cons k ks ih =>
    rw [List.foldl_cons, List.foldl_cons, purgeBox, ih, List.length_cons]
    simp only [Nat.add_assoc, Nat.add_comm 1]

theorem Balances.purgeBoxes {state : Scene × SyncReport} (balances : Balances s state)
    (l : Listing) : Balances s (purgeBoxes l state) := by
  obtain ⟨t, report⟩ := state
  obtain ⟨boxes, cables⟩ := balances
  rw [Scene.purgeBoxes, foldl_purgeBox]
  change Balances s (t.dropStaleBoxes l, _)
  refine ⟨?_, ?_⟩
  · have parted := List.length_eq_length_filter_add (l := t.boxes) fun e => isLive l e.2
    have kept := boxes_dropStaleBoxes l t
    simp only [kept, keys, List.length_map]
    dsimp only at boxes
    omega
  · have same : (t.dropStaleBoxes l).cables = t.cables :=
      cables_congr (cableArena_foldl_removeBox _ t)
    simp only [same]
    exact cables

theorem Balances.showNode {report : SyncReport} (balances : Balances s (t, report))
    (exact : t.boxArena.Exact) (e : NodeEntry) : Balances s (showNode l (t, report) e) := by
  obtain ⟨boxes, cables⟩ := balances
  have same : (Scene.showNode l (t, report) e).1.cables = t.cables :=
    cables_congr (cableArena_showNode l (t, report) e)
  dsimp only at boxes cables
  refine ⟨?_, ?_⟩
  · simp only [Scene.showNode]
    split
    · exact boxes
    · split
      · simp only [boxes_raise, boxes_updateBox, Keyed.update, List.length_map]
        split <;> exact boxes
      · simp only [boxes_raise, boxes_addBox exact, List.length_append, List.length_singleton]
        omega
  · rw [same]
    simp only [Scene.showNode]
    split
    · exact cables
    · split
      · dsimp only
        split <;> exact cables
      · exact cables

theorem Balances.sortBoxes {report : SyncReport} (balances : Balances s (t, report)) :
    Balances s (t.sortBoxes, report) where
  boxes := by
    have same : t.sortBoxes.boxes.length = t.boxes.length := (perm_sortBoxes t).length_eq
    simp only [same]
    exact balances.boxes
  cables := balances.cables

theorem Balances.showWire {report : SyncReport} (balances : Balances s (t, report))
    (exact : t.cableArena.Exact) (e : WireEntry) :
    Balances s (showWire l owner (t, report) e) := by
  obtain ⟨boxes, cables⟩ := balances
  dsimp only at boxes cables
  simp only [Scene.showWire]
  split
  · exact ⟨boxes, cables⟩
  · split
    · refine ⟨boxes, ?_⟩
      simp only [cables_addCable exact, List.length_append, List.length_singleton]
      omega
    · split
      · exact ⟨boxes, cables⟩
      · next found =>
        split
        · refine ⟨boxes, ?_⟩
          simp only [cables_replaceCable exact found, Keyed.replace, List.length_map]
          exact cables
        · split
          · exact ⟨boxes, cables⟩
          · refine ⟨?_, ?_⟩
            · dsimp only
              split <;> exact boxes
            · simp only [cables_updateCable, Keyed.update, List.length_map]
              split <;> exact cables

/-- Step by step through the passes: whatever is listed, the report balances. -/
theorem Regular.balances (regular : s.Regular) (l : Listing) : Balances s (s.reconcile l) := by
  have nodes : (Scene.showNodes l (purge l (s, {}))).1.Regular ∧
      Balances s (Scene.showNodes l (purge l (s, {}))) := by
    have start : Balances s (s, {}) := ⟨rfl, rfl⟩
    rw [Scene.showNodes]
    refine List.foldlRecOn (motive := fun state : Scene × SyncReport => state.1.Regular ∧
      Balances s state) _ _ ⟨?_, ((start.purgeCables _).purgeBoxes l).purgeCables _⟩ ?_
    · rw [purge_fst]
      exact regular.prune l
    · rintro ⟨t, report⟩ ⟨ht, balances⟩ e -
      exact ⟨ht.showNode report e, balances.showNode ht.boxOrder e⟩
  rw [Scene.reconcile]
  generalize Scene.showNodes l (purge l (s, {})) = shown at nodes
  obtain ⟨t, report⟩ := shown
  obtain ⟨ht, balances⟩ := nodes
  refine (List.foldlRecOn (motive := fun state : Scene × SyncReport => state.1.Regular ∧
    Balances s state) _ _ ⟨?_, balances.sortBoxes.purgeCables _⟩ ?_).2
  · exact ht.sortBoxes.keepCables _
  · rintro ⟨u, report⟩ ⟨hu, balances⟩ e -
    exact ⟨hu.showWire _ report e, balances.showWire hu.cableOrder e⟩

/-! ## Cables -/

/-- An entry of the handle of a cable whose ends are there, but are not those of the cable. -/
def Diverts (owner : Nat → Option Nat) (s : Scene) (c : Cable) (e : WireEntry)
    (outlet inlet : JackRef) : Prop :=
  e.handle = c.handle ∧ s.resolveEnds? owner e.ends = some (outlet, inlet) ∧
    ¬(c.outlet = outlet ∧ c.inlet = inlet)

/-- What stands in the place of a cable when some entries have been drawn. -/
structure Handed (owner : Nat → Option Nat) (s : Scene) (es : List WireEntry) (x y : Nat × Cable) :
    Prop where
  handle : y.2.handle = x.2.handle
  stays : (∀ e ∈ es, ∀ outlet inlet, ¬Diverts owner s x.2 e outlet inlet) →
    y.1 = x.1 ∧ x.2.Endures y.2
  diverted : ∀ e ∈ es, ∀ outlet inlet, Diverts owner s x.2 e outlet inlet →
    s.nextCable ≤ y.1 ∧ y.2.outlet = outlet ∧ y.2.inlet = inlet

theorem Handed.of_endures (key : y.1 = x.1) (endures : x.2.Endures y.2)
    (straight : ∀ e ∈ es, ∀ outlet inlet, ¬Diverts owner s x.2 e outlet inlet) :
    Handed owner s es x y where
  handle := endures.handle
  stays _ := ⟨key, endures⟩
  diverted e he outlet inlet diverts := absurd diverts (straight e he outlet inlet)

theorem not_diverts_of_ne (other : e.handle ≠ x.2.handle) :
    ∀ f ∈ [e], ∀ outlet inlet, ¬Diverts owner s x.2 f outlet inlet := by
  intro f hf outlet inlet diverts
  rw [List.mem_singleton.1 hf] at diverts
  exact other diverts.1

theorem Wiring.handed_showWire (wiring : Wiring l arena s) (names : Names owner arena.entries)
    (report : SyncReport) (e : WireEntry)
    (there : s.cables[i]? = some x) :
    ∃ y, (Scene.showWire l owner (s, report) e).1.cables[i]? = some y ∧ Handed owner s [e] x y := by
  obtain rfl := wiring.boxes
  have names : Names owner s.boxes := names
  have mem : x ∈ s.cables := List.mem_of_getElem? there
  have stroke := showWire_stroke (l := l) names report e
  generalize Scene.showWire l owner (s, report) e = result at stroke ⊢
  have apart {k : Nat} {c : Cable} (hc : (k, c) ∈ s.cables) (named : c.handle = e.handle)
      (other : x.1 ≠ k) : e.handle ≠ x.2.handle := by
    intro same
    have heq := List.inj_on_of_nodup_map wiring.handles mem hc (same.symm.trans named.symm)
    exact other (congrArg Prod.fst heq)
  cases stroke with
  | skipped ends =>
    refine ⟨x, there, .of_endures rfl (.refl _) ?_⟩
    intro f hf outlet inlet diverts
    rw [List.mem_singleton.1 hf] at diverts
    exact absurd (ends.symm.trans diverts.2.1) (by simp)
  | @added outlet inlet ends fresh =>
    refine ⟨x, ?_, .of_endures rfl (.refl _) (not_diverts_of_ne fun same => fresh x mem same.symm)⟩
    rw [cables_addCable wiring.cables, List.getElem?_append_left (List.getElem?_eq_some_iff.1 there).1]
    exact there
  | @replaced outlet inlet k c ends hc named moved =>
    obtain ⟨hhandle, houtlet, hinlet⟩ :=
      newCable_ends s e.handle outlet inlet ((l.token e.handle).getD "")
    rw [cables_replaceCable wiring.cables (cable?_of_mem hc), Keyed.getElem?_replace, there]
    by_cases same : x.1 = k
    · have hx : x = (k, c) := Prod.ext same (Keyed.eq_of_mem wiring.nodup (same ▸ mem) hc)
      subst hx
      refine ⟨_, congrArg some (if_pos rfl), hhandle.trans named.symm, ?_, ?_⟩
      · intro straight
        refine absurd ⟨named.symm, ends, ?_⟩ (straight e (List.mem_singleton_self e) outlet inlet)
        exact fun both => moved.elim (absurd both.1) (absurd both.2)
      · intro f hf outlet' inlet' diverts
        rw [List.mem_singleton.1 hf] at diverts
        obtain ⟨rfl, rfl⟩ := Prod.mk.inj (Option.some.inj (ends.symm.trans diverts.2.1))
        exact ⟨Nat.le_refl _, houtlet, hinlet⟩
    · exact ⟨x, congrArg some (if_neg same),
        .of_endures rfl (.refl _) (not_diverts_of_ne (apart hc named same))⟩
  | @refreshed k c start stop ends hc named anchors =>
    rw [cables_updateCable, Keyed.update_const, Keyed.getElem?_replace, there]
    by_cases same : x.1 = k
    · have hx : x = (k, c) := Prod.ext same (Keyed.eq_of_mem wiring.nodup (same ▸ mem) hc)
      subst hx
      refine ⟨_, congrArg some (if_pos rfl), .of_endures rfl (c.endures_refresh ..) ?_⟩
      intro f hf outlet inlet diverts
      obtain ⟨-, found, differ⟩ := diverts
      rw [List.mem_singleton.1 hf] at found
      obtain ⟨rfl, rfl⟩ := Prod.mk.inj (Option.some.inj (ends.symm.trans found))
      exact differ ⟨rfl, rfl⟩
    · exact ⟨x, congrArg some (if_neg same),
        .of_endures rfl (.refl _) (not_diverts_of_ne (apart hc named same))⟩

theorem nextCable_showWire (l : Listing) (owner : Nat → Option Nat) (s : Scene)
    (report : SyncReport) (e : WireEntry) :
    s.nextCable ≤ (showWire l owner (s, report) e).1.nextCable := by
  simp only [showWire]
  split
  · exact Nat.le_refl _
  · split
    · rw [nextCable_addCable]
      exact Nat.le_succ _
    · split
      · exact Nat.le_refl _
      · split
        · rw [nextCable_replaceCable]
          exact Nat.le_succ _
        · split
          · exact Nat.le_refl _
          · exact Nat.le_of_eq (Arena.next_update ..).symm

theorem diverts_congr {c d : Cable} {outlet inlet : JackRef} (same : t.boxArena = s.boxArena)
    (endures : c.Endures d) :
    Diverts owner t d e outlet inlet ↔ Diverts owner s c e outlet inlet := by
  rw [Diverts, Diverts, resolveEnds?_congr same, endures.handle, endures.outlet, endures.inlet]

theorem Handed.cons {z : Nat × Cable} (first : Handed owner s [e] x y) (rest : Handed owner t es y z)
    (boxes : t.boxArena = s.boxArena) (next : s.nextCable ≤ t.nextCable)
    (distinct : ∀ f ∈ es, f.handle ≠ e.handle) : Handed owner s (e :: es) x z where
  handle := rest.handle.trans first.handle
  stays straight := by
    obtain ⟨one, others⟩ := List.forall_mem_cons.1 straight
    obtain ⟨key, endures⟩ := first.stays (List.forall_mem_singleton.2 one)
    obtain ⟨key', endures'⟩ := rest.stays fun f hf outlet inlet diverts =>
      others f hf outlet inlet ((diverts_congr boxes endures).1 diverts)
    exact ⟨key'.trans key, endures.trans endures'⟩
  diverted f hf outlet inlet diverts := by
    rcases List.mem_cons.1 hf with rfl | hf
    · obtain ⟨low, rfl, rfl⟩ := first.diverted f (List.mem_singleton_self f) outlet inlet diverts
      obtain ⟨key, endures⟩ := rest.stays fun g hg _ _ again =>
        distinct g hg (again.1.trans (first.handle.trans diverts.1.symm))
      exact ⟨key ▸ low, endures.outlet, endures.inlet⟩
    · have other : e.handle ≠ x.2.handle := fun same => distinct f hf (diverts.1.trans same.symm)
      obtain ⟨-, endures⟩ := first.stays (not_diverts_of_ne other)
      obtain ⟨low, ends⟩ := rest.diverted f hf outlet inlet ((diverts_congr boxes endures).2 diverts)
      exact ⟨Nat.le_trans next low, ends⟩

theorem Wiring.handed (wiring : Wiring l arena s) (names : Names owner arena.entries)
    (listed : ∀ e ∈ es, l.hasWire e.handle = true)
    (distinct : (es.map (·.handle)).Nodup) (report : SyncReport) (there : s.cables[i]? = some x) :
    ∃ y, (es.foldl (Scene.showWire l owner) (s, report)).1.cables[i]? = some y ∧
      Handed owner s es x y := by
  induction es generalizing s report x with
  | nil =>
    exact ⟨x, there, .of_endures rfl (.refl _) fun e he => absurd he List.not_mem_nil⟩
  | cons e es ih =>
    obtain ⟨hlisted, hrest⟩ := List.forall_mem_cons.1 listed
    rw [List.map_cons, List.nodup_cons] at distinct
    have step := wiring.showWire names hlisted report
    have next := nextCable_showWire l owner s report e
    obtain ⟨y, hy, first⟩ := wiring.handed_showWire names report e there
    rw [List.foldl_cons]
    generalize Scene.showWire l owner (s, report) e = t at step next hy
    obtain ⟨t, report'⟩ := t
    obtain ⟨z, hz, rest⟩ := ih step.wiring hrest distinct.2 report' hy
    refine ⟨z, hz, first.cons rest (step.wiring.boxes.trans wiring.boxes.symm) next ?_⟩
    intro f hf same
    exact distinct.1 (same ▸ List.mem_map_of_mem hf)

/-! ## The whole pass -/

/-- The cables of listed wires whose ends are still there. -/
def survivors (l : Listing) (s t : Scene) : Keyed Cable :=
  s.cables.filter fun x => l.hasWire x.2.handle && t.isWired x.2

/-- What a scene keeps, and in which order, when it becomes another. -/
structure Keeps (l : Listing) (s t : Scene) : Prop where
  boxes : ∀ k b h, (k, b) ∈ s.boxes → b.handle = some h → l.hasNode h = true →
    ∃ b', (k, b') ∈ t.boxes ∧ b.Endures b'
  blanks : t.blanks = s.blanks
  cables : ∀ x ∈ s.cables, ∀ e ∈ Listing.firstWires [] l.wires, e.handle = x.2.handle →
    Joins s.boxes x.2 e.ends → l.Offers e.ends.outletOwner .outlet e.ends.outlet →
      l.Offers e.ends.inletOwner .inlet e.ends.inlet →
        ∃ i : Nat, (survivors l s t)[i]? = some x ∧
          ∃ c, t.cables[i]? = some (x.1, c) ∧ x.2.Endures c
  places : ∀ (i : Nat) x, (survivors l s t)[i]? = some x → ∃ y, t.cables[i]? = some y ∧
    (y.1 = x.1 ∧ x.2.Endures y.2 ∨ s.nextCable ≤ y.1 ∧ y.2.handle = x.2.handle ∧
      ∃ e ∈ Listing.firstWires [] l.wires, e.handle = x.2.handle ∧ Joins t.boxes y.2 e.ends)

/-- Once the nodes are shown, the cables that are left are those that survive. -/
theorem Advances.cables_dropOrphans (advances : Advances l (s.prune l) t) (wf : s.WellFormed)
    (wired : ∀ x ∈ s.cables, s.isWired x.2 = true)
    (cables : t.cableArena = (s.prune l).cableArena)
    (boxes : u.boxArena = t.sortBoxes.boxArena) (exact : t.boxArena.Exact) :
    t.sortBoxes.dropOrphans.cables = survivors l s u := by
  have sorted (ref : JackRef) : t.sortBoxes.jack? ref = t.jack? ref := by
    rw [jack?, box?_sortBoxes, jack?]
  rw [dropOrphans, cables_keepCables, cables_congr (t := t.sortBoxes) cables, cables_prune_eq,
    List.filter_filter, survivors]
  refine List.filter_congr fun x hx => ?_
  rw [isWired_congr boxes, Bool.and_comm, Bool.and_comm (l.hasWire _), Bool.and_assoc,
    Bool.and_comm (l.hasWire _), ← Bool.and_assoc]
  congr 1
  rw [Bool.and_eq_right_iff_imp]
  intro still
  obtain ⟨ho, hi⟩ : (s.jack? x.2.outlet).isSome = true ∧ (s.jack? x.2.inlet).isSome = true := by
    simpa [isWired] using wired x hx
  obtain ⟨ho', hi'⟩ : (t.jack? x.2.outlet).isSome = true ∧ (t.jack? x.2.inlet).isSome = true := by
    simpa [isWired, sorted] using still
  simp only [isWired, advances.isSome_jack? wf exact ho ho',
    advances.isSome_jack? wf exact hi hi',
    Bool.and_self]

theorem distinct_unique (mem : e ∈ Listing.firstWires [] l.wires) {f : WireEntry}
    (mem' : f ∈ Listing.firstWires [] l.wires) (same : e.handle = f.handle) : e = f :=
  List.inj_on_of_nodup_map (distinct_firstWires [] l.wires) mem mem' same

/-- Whatever a well-formed scene whose cables have both their ends is reconciled with, it keeps what
stays, and the report balances. -/
theorem reconcile_keeps (s : Scene) (wf : s.WellFormed)
    (wired : ∀ x ∈ s.cables, s.isWired x.2 = true) (l : Listing) :
    Keeps l s (s.reconcile l).1 ∧
      (s.reconcile l).1.boxes.length + (s.reconcile l).2.boxesRemoved
        = s.boxes.length + (s.reconcile l).2.boxesAdded ∧
      (s.reconcile l).1.cables.length + (s.reconcile l).2.cablesRemoved
        = s.cables.length + (s.reconcile l).2.cablesAdded := by
  have balances := (wellFormed_iff.1 wf).1.balances l
  refine ⟨?_, balances.boxes, balances.cables⟩
  obtain ⟨t, report, passes⟩ := wf.passes l
  have arena := passes.reconciled.boxes
  have boxes := boxes_congr (t := (s.reconcile l).1) (s := t.sortBoxes) arena
  have handed (i : Nat) (x : Nat × Cable) :=
    passes.wiring.handed (i := i) (x := x) passes.names (listed_firstWires l)
      (distinct_firstWires [] l.wires) report
  have blanks := wf.blanks_reconcile l
  rw [passes.advances.cables_dropOrphans wf wired passes.cables arena passes.wf.boxOrder] at handed
  have hrec := congrArg Prod.fst passes.reconcile
  rw [showWires] at hrec
  rw [← hrec] at handed
  generalize (s.reconcile l).1 = u at arena boxes handed blanks ⊢
  have left : u.boxes = t.sortBoxes.dropOrphans.boxes :=
    boxes_congr (arena.trans passes.wiring.boxes.symm)
  have next : t.sortBoxes.dropOrphans.nextCable = s.nextCable := by
    rw [dropOrphans, nextCable_keepCables]
    exact (congrArg Arena.next passes.cables).trans (cables_prune l s).2
  have there {g : Nat} {side : Side} {i : Nat} {ref : JackRef}
      (terminal : Terminal s.boxes g side i ref) (offers : l.Offers g side i) :
      Terminal u.boxes g side i ref := by
    obtain ⟨k, b, mem, rest⟩ := passes.advances.terminal terminal offers
    exact ⟨k, b, boxes ▸ mem_sortBoxes.2 mem, rest⟩
  refine ⟨?_, blanks, ?_, ?_⟩
  · intro k b h mem named known
    have live : (k, b) ∈ (s.prune l).boxes := by
      rw [boxes_prune]
      exact List.mem_filter.2 ⟨mem, by simp [isLive, named, known]⟩
    obtain ⟨b', mem', follows⟩ := passes.advances.boxes k b live
    exact ⟨b', boxes ▸ mem_sortBoxes.2 mem', follows.endures⟩
  · intro x mem e he same terminals offersOut offersIn
    have hout := there terminals.1 offersOut
    have hin := there terminals.2 offersIn
    have survives : x ∈ survivors l s u := by
      refine List.mem_filter.2 ⟨mem, ?_⟩
      simp [same ▸ listed_firstWires l e he, isWired, hout.isSome_jack?, hin.isSome_jack?]
    obtain ⟨i, hi⟩ := List.mem_iff_getElem?.1 survives
    obtain ⟨⟨k, c⟩, hc, handed⟩ := handed i x hi
    obtain ⟨key, endures⟩ := handed.stays fun f hf outlet inlet diverts => by
      obtain rfl := distinct_unique hf he (diverts.1.trans same.symm)
      have ends := passes.owns.resolveEnds? (left ▸ hout) (left ▸ hin)
      obtain ⟨rfl, rfl⟩ := Prod.mk.inj (Option.some.inj (ends.symm.trans diverts.2.1))
      exact diverts.2.2 ⟨rfl, rfl⟩
    obtain rfl : k = x.1 := key
    exact ⟨i, hi, c, hc, endures⟩
  · intro i x hi
    obtain ⟨y, hy, handed⟩ := handed i x hi
    refine ⟨y, hy, ?_⟩
    by_cases straight : ∀ e ∈ Listing.firstWires [] l.wires, ∀ outlet inlet,
        ¬Diverts t.ownerOf? t.sortBoxes.dropOrphans x.2 e outlet inlet
    · exact Or.inl (handed.stays straight)
    · simp only [not_forall, not_not] at straight
      obtain ⟨e, he, outlet, inlet, diverts⟩ := straight
      obtain ⟨low, rfl, rfl⟩ := handed.diverted e he outlet inlet diverts
      have joins := passes.owns.names.joins diverts.2.1
      rw [← left] at joins
      exact Or.inr ⟨next ▸ low, handed.handle, e, he, diverts.1, joins⟩

/-- Three wires into one inlet, two of them with the same handle. -/
def twins : Patch where
  nodes := [(1, ⟨"a", ⟨0, 0, 40, 20⟩, [], [true, true, true]⟩),
    (2, ⟨"b", ⟨0, 100, 40, 20⟩, [true], []⟩)]
  wires := [⟨6, ⟨1, 2, 2, 0⟩, ""⟩, ⟨5, ⟨1, 0, 2, 0⟩, ""⟩, ⟨5, ⟨1, 1, 2, 0⟩, ""⟩]
  next := 7

/-- The two nodes change places, and the first loses an outlet. -/
theorem reconcile_keeps_twins :
    let s := (reconcile twins.listing {}).1
    let l := ((twins.swap 0 1).setJacks 1 [] [true, true]).toContents.listing
    s.WellFormed ∧ (∀ x ∈ s.cables, s.isWired x.2 = true) ∧ Keeps l s (s.reconcile l).1 ∧
      (s.reconcile l).1.boxes.length + (s.reconcile l).2.boxesRemoved
        = s.boxes.length + (s.reconcile l).2.boxesAdded ∧
      (s.reconcile l).1.cables.length + (s.reconcile l).2.cablesRemoved
        = s.cables.length + (s.reconcile l).2.cablesAdded := by
  obtain ⟨shown, settled, -⟩ := wellFormed_empty.settled (c := twins.toContents) (by decide)
  have wired : ∀ x ∈ (reconcile twins.listing {}).1.cables,
      (reconcile twins.listing {}).1.isWired x.2 = true := fun x hx => (settled.cables x hx).2
  exact ⟨settled.wf, wired, reconcile_keeps _ settled.wf wired _⟩

/-- Where two wires have one handle, the cable of the first loses its place to the second when the
second comes to be the first. -/
theorem reconcile_twins : ¬ ∀ p : Patch, (keys p.nodes).Nodup → ∀ ms : List Patch.Mutation,
    let s := (reconcile p.listing {}).1
    let q := ms.foldl (fun q m => m.run q) p
    let t := (s.reconcile q.listing).1
    ∀ x ∈ s.cables, (∃ w ∈ q.wires, w.handle = x.2.handle ∧
        s.sign x.2.outlet = (some w.ends.outletOwner, .outlet, w.ends.outlet) ∧
        s.sign x.2.inlet = (some w.ends.inletOwner, .inlet, w.ends.inlet)) →
      t.isWired x.2 = true → x.1 ∈ keys t.cables := by
  intro always
  have kept := always twins (by decide)
    [.edit (.disconnect ⟨1, 0, 2, 0⟩ none), .setJacks 1 [] [true, true], .undo]
  revert kept
  decide +kernel

end Scene

end Patchbay
