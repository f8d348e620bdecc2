import Patchbay.Proofs.Drawing
import Patchbay.Proofs.Numbered

/-!
# Scenes in which boxes share a handle

A canvas that goes from one document to another can come to have several boxes with one handle. The
last of them shows the node, and the wires are drawn to it; the others stay behind. So whatever else
is in a scene, a pass makes of each wire what it makes of it in a scene of the document alone.
-/

namespace Patchbay

open Keyed (keys)

namespace Scene

variable {c : Contents} {s t u : Scene} {nodes : Keyed Node} {l : Listing}
  {owner : Nat → Option Nat} {b : Box} {n : Node} {h i j k : Nat} {side : Side} {p q : Point}

/-! ## Showing nodes -/

theorem ownerOf?_congr (same : t.boxes = s.boxes) : t.ownerOf? = s.ownerOf? := by
  funext h
  simp only [ownerOf?, same]

theorem ownerOf?_updateBox {f : Box → Box} (same : ∀ b, (f b).handle = b.handle) (k h : Nat) :
    (s.updateBox k f).ownerOf? h = s.ownerOf? h := by
  have named : (fun e : Nat × Box => (if e.1 = k then (e.1, f e.2) else e).2.handle == some h)
      = fun e => e.2.handle == some h := by
    funext e
    split
    · rw [same]
    · rfl
  have key : (fun e : Nat × Box => (if e.1 = k then (e.1, f e.2) else e).1) = fun e => e.1 := by
    funext e
    split <;> rfl
  simp only [ownerOf?, boxes_updateBox, Keyed.update, ← List.map_reverse, List.find?_map,
    Function.comp_def, Option.map_map, named, key]

theorem ownerOf?_addBox (exact : s.boxArena.Exact) (b : Box) (h : Nat) : (s.addBox b).2.ownerOf? h
    = if b.handle = some h then some s.nextBox else s.ownerOf? h := by
  simp only [ownerOf?, boxes_addBox exact, List.reverse_append, List.reverse_singleton,
    List.singleton_append, List.find?_cons]
  by_cases named : b.handle = some h
  · simp [named]
  · simp [named, beq_eq_false_iff_ne.2 named]

/-- A scene in which the first `i` nodes are shown, each by the last box of its handle. -/
structure Owned (nodes : Keyed Node) (i : Nat) (s : Scene) : Prop where
  boxOrder : s.boxArena.Exact
  listed : ∀ e ∈ s.boxes, ∀ h, e.2.handle = some h → h ∈ keys nodes
  shown : ∀ j < i, ∀ h n, nodes[j]? = some (h, n) →
    ∃ k b, s.ownerOf? h = some k ∧ (k, b) ∈ s.boxes ∧ b.Steady n.info j

theorem Regular.owned (regular : s.Regular) (c : Contents) :
    Owned c.nodes 0 (s.prune c.listing) := by
  refine ⟨(regular.prune _).boxOrder, ?_, fun j hj => absurd hj (Nat.not_lt_zero j)⟩
  intro e he h named
  rw [boxes_prune] at he
  obtain ⟨he, live⟩ := List.mem_filter.1 he
  exact hasNode_listing.1 (hasNode_of_isLive (regular.editing e he) named live)

theorem Owned.raise (owned : Owned nodes i s) (k : Nat) : Owned nodes i (s.raise k) := by
  have hboxes := boxes_raise s k
  obtain ⟨exact, listed, shown⟩ := owned
  refine ⟨boxArena_raise s k ▸ exact, hboxes ▸ listed, ?_⟩
  rw [ownerOf?_congr hboxes, hboxes]
  exact shown

theorem Owned.renew (owned : Owned nodes i s) (nodup : (keys nodes).Nodup)
    (there : nodes[i]? = some (h, n)) (owner : s.ownerOf? h = some k) :
    Owned nodes (i + 1) (s.updateBox k fun b => b.renew n.info i) := by
  have hboxes := boxes_updateBox s k fun b => b.renew n.info i
  obtain ⟨b, mem, named⟩ := mem_of_ownerOf? owner
  refine ⟨owned.boxOrder.update k _, ?_, ?_⟩
  · intro e he g hg
    rcases Keyed.of_mem_update (hboxes ▸ he) with ⟨he, -⟩ | ⟨a, ha, rfl⟩
    · exact owned.listed e he g hg
    · exact owned.listed _ ha g ((a.handle_renew n.info i).symm.trans hg)
  · intro j hj g m hm
    rw [ownerOf?_updateBox (f := fun b => b.renew n.info i) fun b => b.handle_renew n.info i, hboxes]
    by_cases last : j = i
    · subst last
      obtain ⟨rfl, rfl⟩ := Prod.mk.inj (Option.some.inj (there.symm.trans hm))
      exact ⟨k, _, owner, Keyed.mem_update_self _ mem, b.steady_renew n.info j⟩
    · obtain ⟨k', b', owner', mem', steady⟩ := owned.shown j (by omega) g m hm
      refine ⟨k', b', owner', Keyed.mem_update_of_ne _ mem' ?_, steady⟩
      -- Boxes with different handles have different keys.
      rintro rfl
      obtain ⟨a, ha, named'⟩ := mem_of_ownerOf? owner'
      obtain rfl := Keyed.eq_of_mem owned.boxOrder.nodup_keys ha mem
      obtain rfl := Option.some.inj (named'.symm.trans named)
      exact last (Keyed.getElem?_inj nodup hm there)

theorem Owned.add (owned : Owned nodes i s) (nodup : (keys nodes).Nodup)
    (there : nodes[i]? = some (h, n)) :
    Owned nodes (i + 1) (s.addBox (Box.ofInfo h n.info i)).2 := by
  have hboxes := boxes_addBox owned.boxOrder (Box.ofInfo h n.info i)
  have named : (Box.ofInfo h n.info i).handle = some h := rfl
  refine ⟨owned.boxOrder.insert _, ?_, ?_⟩
  · intro e he g hg
    rw [hboxes] at he
    rcases List.mem_append.1 he with he | he
    · exact owned.listed e he g hg
    · rw [List.mem_singleton.1 he, named] at hg
      obtain rfl := Option.some.inj hg
      exact Keyed.mem_keys_of_mem (List.mem_of_getElem? there)
  · intro j hj g m hm
    rw [ownerOf?_addBox owned.boxOrder, named, hboxes]
    by_cases last : j = i
    · subst last
      obtain ⟨rfl, rfl⟩ := Prod.mk.inj (Option.some.inj (there.symm.trans hm))
      exact ⟨s.nextBox, _, if_pos rfl, List.mem_append_right _ (List.mem_singleton_self _),
        Box.steady_ofInfo h n.info j⟩
    · obtain ⟨k, b, owner, mem, steady⟩ := owned.shown j (by omega) g m hm
      have other : ¬some h = some g := by
        rintro same
        obtain rfl := Option.some.inj same
        exact last (Keyed.getElem?_inj nodup hm there)
      exact ⟨k, b, (if_neg other).trans owner, List.mem_append_left _ mem, steady⟩

theorem Owned.showNode (owned : Owned nodes i s) (nodup : (keys nodes).Nodup)
    (there : nodes[i]? = some (h, n)) (info : l.info h = some n.info) (report : SyncReport) :
    Owned nodes (i + 1) (Scene.showNode l (s, report) ⟨h, i⟩).1 := by
  rcases showNode_cases info report i with ⟨k, b, owner, -, -, hs⟩ | ⟨-, hs⟩
  · rw [hs]
    exact (owned.renew nodup there owner).raise k
  · rw [hs]
    exact (owned.add nodup there).raise _

theorem Owned.showNodes (nodup : (keys c.nodes).Nodup) (owned : Owned c.nodes 0 s)
    (report : SyncReport) :
    Owned c.nodes c.nodes.length (Scene.showNodes c.listing (s, report)).1 :=
  showNodes_induction nodup
    (fun _ _ _ _ report there info owned => owned.showNode nodup there info report) owned report

/-! ## Drawing wires -/

/-- What reconciling makes of any scene: `owner` tells which boxes show the nodes. -/
structure Rewired (c : Contents) (s : Scene) (owner : Nat → Option Nat) (u : Scene) : Prop where
  numbered : u.Numbered
  cableHandles : (u.cables.map (·.2.handle)).Nodup
  names : Names owner u.boxes
  listed : ∀ h k, owner h = some k → h ∈ keys c.nodes
  shown : ∀ j h n, c.nodes[j]? = some (h, n) →
    ∃ k b, owner h = some k ∧ (k, b) ∈ u.boxes ∧ b.Steady n.info j
  drawn : ∀ e ∈ Listing.firstWires [] c.listing.wires, ∀ outlet inlet,
    u.resolveEnds? owner e.ends = some (outlet, inlet) →
      ∃ a b, u.anchor? outlet = some a ∧ u.anchor? inlet = some b ∧ ∃ x ∈ u.cables,
        ∃ old, (∀ y ∈ old, y ∈ s.cables) ∧
          Draft old e ((c.listing.token e.handle).getD "") outlet inlet a b x.2
  others : ∀ x ∈ u.cables, (∀ e ∈ Listing.firstWires [] c.listing.wires,
    x.2.handle = e.handle → u.resolveEnds? owner e.ends = none) → x ∈ s.cables

theorem Regular.rewired (regular : s.Regular) (numbered : s.Numbered)
    (nodup : (keys c.nodes).Nodup) : ∃ owner, Rewired c s owner (s.reconcile c.listing).1 := by
  have owned := (regular.owned c).showNodes nodup {}
  have hcables := cableArena_showNodes c.listing (s.prune c.listing, {})
  have stays := numbered.reconcile c.listing
  generalize shown : (Scene.showNodes c.listing (s.prune c.listing, {})).1 = t at owned hcables
  obtain ⟨report, -, hrec⟩ := reconcile_of_showNodes shown
  have start : Wiring c.listing t.sortBoxes.boxArena t.sortBoxes.dropOrphans :=
    wiring_dropOrphans regular.cableOrder regular.cableHandles hcables
  have names : Names t.ownerOf? t.sortBoxes.boxes := by
    intro g k owner
    obtain ⟨b, mem, named⟩ := mem_of_ownerOf? owner
    exact ⟨b, mem_sortBoxes.2 mem, named⟩
  have listed := listed_firstWires c.listing
  have distinct := distinct_firstWires [] c.listing.wires
  have redrawn := start.redrawn names listed distinct report
  obtain ⟨wiring, -, -⟩ := start.foldl names listed distinct report
  have former : ∀ y ∈ t.sortBoxes.dropOrphans.cables, y ∈ s.cables := by
    intro y hy
    rw [dropOrphans, cables_keepCables, cables_congr (t := t.sortBoxes) hcables] at hy
    have hy := (cables_prune c.listing s).1.subset (List.mem_filter.1 hy).1
    exact (List.mem_filter.1 hy).1
  rw [← showWires, ← hrec] at redrawn wiring
  have boxes := boxes_congr (s := t.sortBoxes) wiring.boxes
  refine ⟨t.ownerOf?, stays, wiring.handles, boxes ▸ names, ?_, ?_, ?_, ?_⟩
  · intro h k owner
    obtain ⟨b, mem, named⟩ := mem_of_ownerOf? owner
    exact owned.listed _ mem h named
  · intro j h n there
    have hlt := (List.getElem?_eq_some_iff.1 there).1
    obtain ⟨k, b, owner, mem, steady⟩ := owned.shown j hlt h n there
    exact ⟨k, b, owner, boxes ▸ mem_sortBoxes.2 mem, steady⟩
  · intro e he outlet inlet ends
    rw [resolveEnds?_congr redrawn.same.1] at ends
    obtain ⟨a, b, ha, hb, x, hx, draft⟩ := redrawn.drawn e he outlet inlet ends
    have anchors := anchor?_congr redrawn.same.1
    exact ⟨a, b, (anchors _).trans ha, (anchors _).trans hb, x, hx, _, former, draft⟩
  · intro x hx none
    refine former x ((redrawn.others x fun e he named => ?_).1 hx)
    rw [← resolveEnds?_congr redrawn.same.1]
    exact none e he named

theorem site?_boxesOf (nodup : (keys nodes).Nodup) (there : nodes[j]? = some (h, n))
    (steady : b.Steady n.info i) (numbered : b.Numbered) (side : Side) (k : Nat) :
    site? (boxesOf nodes) h side k = (b.jack? side k).map fun q => (b.jackBounds q).centre := by
  obtain ⟨a, found⟩ : ∃ a, (boxesOf nodes).find? (fun b => b.handle == some h) = some a := by
    refine Option.isSome_iff_exists.1 (List.find?_isSome.2 ⟨Box.ofInfo h n.info j, ?_, ?_⟩)
    · obtain ⟨hlt, same⟩ := List.getElem?_eq_some_iff.1 there
      exact List.mem_mapIdx.2 ⟨j, hlt, by rw [same]⟩
    · exact beq_self_eq_true _
  have named : a.handle = some h := by simpa using List.find?_some found
  obtain ⟨j', hlt, rfl⟩ := List.mem_mapIdx.1 (List.mem_of_find?_eq_some found)
  have first : nodes[j'].1 = h := Option.some.inj named
  have same : nodes[j'] = (h, n) := by
    refine Prod.ext first (Keyed.eq_of_mem nodup (k := h) ?_ (List.mem_of_getElem? there))
    rw [← first]
    exact List.getElem_mem hlt
  rw [same] at found
  have spot := congrArg (Option.map Rect.centre)
    ((Box.steady_ofInfo h n.info j').jackBounds?
    steady (Box.numbered_ofInfo h n.info j') numbered side k)
  rw [Option.map_map, Option.map_map] at spot
  rw [site?, found, Option.bind_some]
  exact spot

theorem site?_boxesOf_of_not_mem (gone : h ∉ keys nodes) (side : Side) (k : Nat) :
    site? (boxesOf nodes) h side k = none := by
  have none : (boxesOf nodes).find? (fun b => b.handle == some h) = .none := by
    refine List.find?_eq_none.2 fun a ha => ?_
    obtain ⟨j, hlt, rfl⟩ := List.mem_mapIdx.1 ha
    have other : nodes[j].1 ≠ h :=
      fun same => gone (same ▸ List.mem_map_of_mem (List.getElem_mem hlt))
    simpa [Box.ofInfo, Box.fitJacks, Box.resizeGroups, Box.layoutJacks] using other
  rw [site?, none, Option.bind_none]

theorem isSome_site?_boxesOf (nodup : (keys nodes).Nodup) : (site? (boxesOf nodes) h side i).isSome
    = true ↔ ∃ fs, (Keyed.get? nodes h).map (·.info.signals side) = some fs ∧ i < fs.length := by
  by_cases there : h ∈ keys nodes
  · obtain ⟨⟨g, n⟩, mem, rfl⟩ := List.mem_map.1 there
    obtain ⟨j, hj⟩ := List.mem_iff_getElem?.1 mem
    have steady := Box.steady_ofInfo g n.info j
    rw [site?_boxesOf nodup hj steady (Box.numbered_ofInfo g n.info j), Keyed.get?_of_mem nodup mem,
      Option.isSome_map, Box.isSome_jack?_iff, steady.length]
    simp
  · have gone : Keyed.get? nodes h = none :=
      Option.eq_none_iff_forall_ne_some.2 fun n hn =>
        there (Keyed.mem_keys_of_mem (Keyed.mem_of_get? hn))
    simp [site?_boxesOf_of_not_mem there, gone]

namespace Rewired

theorem site? (rewired : Rewired c s owner u) (nodup : (keys c.nodes).Nodup) (h : Nat) (side : Side)
    (i : Nat) : site? (boxesOf c.nodes) h side i = (u.resolve? owner h side i).bind u.anchor? := by
  by_cases there : h ∈ keys c.nodes
  · obtain ⟨⟨g, n⟩, mem, rfl⟩ := List.mem_map.1 there
    obtain ⟨j, hj⟩ := List.mem_iff_getElem?.1 mem
    obtain ⟨k, b, hk, hb, steady⟩ := rewired.shown j g n hj
    have hbox : u.box? k = some b := box?_of_mem hb
    rw [site?_boxesOf nodup hj steady (rewired.numbered _ hb)]
    by_cases hlt : i < (b.jacks side).length
    · simp [resolve?, hk, hbox, hlt, anchor?, jackBounds?, Box.jack?_eq]
    · simp [resolve?, hk, hbox, hlt, Box.jack?_eq]
  · have gone : owner h = none :=
      Option.eq_none_iff_forall_ne_some.2 fun k hk => there (rewired.listed h k hk)
    simp [site?_boxesOf_of_not_mem there, resolve?, gone]

theorem span?_eq_some_iff (rewired : Rewired c s owner u) (nodup : (keys c.nodes).Nodup)
    {w : Wire} : span? c (boxesOf c.nodes) h = some (w, p, q) ↔ c.wire? h = some w ∧
      ∃ outlet inlet, u.resolveEnds? owner w.ends = some (outlet, inlet) ∧
        u.anchor? outlet = some p ∧ u.anchor? inlet = some q := by
  simp only [Scene.span?_eq_some_iff, rewired.site? nodup, Option.bind_eq_some_iff,
    resolveEnds?_eq_some_iff]
  constructor
  · rintro ⟨hw, ⟨outlet, hout, hp⟩, inlet, hin, hq⟩
    exact ⟨hw, outlet, inlet, ⟨hout, hin⟩, hp, hq⟩
  · rintro ⟨hw, outlet, inlet, ⟨hout, hin⟩, hp, hq⟩
    exact ⟨hw, ⟨outlet, hout, hp⟩, inlet, hin, hq⟩

theorem exists_draft (rewired : Rewired c s owner u) (nodup : (keys c.nodes).Nodup) {w : Wire}
    (spans : span? c (boxesOf c.nodes) h = some (w, p, q)) : ∃ e outlet inlet, ∃ x ∈ u.cables,
      ∃ old, (∀ y ∈ old, y ∈ s.cables) ∧ e.handle = h ∧
        u.resolveEnds? owner w.ends = some (outlet, inlet) ∧
        u.anchor? outlet = some p ∧ u.anchor? inlet = some q ∧
        Draft old e w.token outlet inlet p q x.2 := by
  obtain ⟨hw, outlet, inlet, ends, hp, hq⟩ := (rewired.span?_eq_some_iff nodup).1 spans
  obtain rfl : w.handle = h := by simpa using List.find?_some hw
  obtain ⟨a, b, ha, hb, x, hx, old, former, draft⟩ :=
    rewired.drawn _ (mem_firstWires_listing hw) outlet inlet ends
  obtain rfl := Option.some.inj (ha.symm.trans hp)
  obtain rfl := Option.some.inj (hb.symm.trans hq)
  have token : (c.listing.token w.handle).getD "" = w.token := by
    simp [Contents.listing, hw]
  rw [token] at draft
  exact ⟨_, outlet, inlet, x, hx, old, former, rfl, ends, hp, hq, draft⟩

theorem mem_of_span?_eq_none (rewired : Rewired c s owner u) (nodup : (keys c.nodes).Nodup)
    {x : Nat × Cable} (hx : x ∈ u.cables)
    (none : span? c (boxesOf c.nodes) x.2.handle = none) : x ∈ s.cables := by
  refine rewired.others x hx fun e he named => ?_
  refine Option.eq_none_iff_forall_ne_some.2 fun ⟨outlet, inlet⟩ ends => ?_
  obtain ⟨a, b, ha, hb, -⟩ := rewired.drawn e he outlet inlet ends
  obtain ⟨w, hw, same, -⟩ := wire?_of_firstWires he
  have spans := (rewired.span?_eq_some_iff nodup).2
    ⟨named ▸ hw, outlet, inlet, same ▸ ends, ha, hb⟩
  exact absurd (none.symm.trans spans) (by simp)

/-- What is shown of a handle depends only on what its cable was drawn over. -/
theorem pictures (rewired : Rewired c s owner u) (nodup : (keys c.nodes).Nodup)
    {G : Route → String → Point → Point → Prop}
    (own : ∀ x ∈ s.cables, x ∈ u.cables → x.2.handle = h →
      span? c (boxesOf c.nodes) h ≠ none)
    (drafts : ∀ {old e w outlet inlet a b x}, span? c (boxesOf c.nodes) h = some (w, a, b) →
      (∀ y ∈ old, y ∈ s.cables) → e.handle = h → Draft old e w.token outlet inlet a b x →
        x.token = w.token ∧ G x.route w.token a b) :
    Pictures c (boxesOf c.nodes) G h (u.drawing? h) := by
  cases spans : span? c (boxesOf c.nodes) h with
  | none =>
    have nothing : u.cables.find? (fun x => x.2.handle == h) = none := by
      refine List.find?_eq_none.2 fun x hx named => ?_
      obtain rfl : x.2.handle = h := by simpa using named
      exact own x (rewired.mem_of_span?_eq_none nodup hx spans) hx rfl spans
    simp only [Pictures, spans, drawing?, nothing, Option.map_none]
  | some span =>
    obtain ⟨w, p, q⟩ := span
    obtain ⟨e, outlet, inlet, x, hx, old, former, same, ends, -, -, draft⟩ :=
      rewired.exists_draft nodup spans
    obtain ⟨token, good⟩ := drafts spans former same draft
    obtain ⟨named, houtlet, hinlet⟩ := draft.ends
    obtain ⟨hout, hin⟩ := rewired.names.joins ends
    simp only [Pictures, spans]
    refine ⟨x.2.route, good, ?_⟩
    rw [drawing?_of_mem rewired.cableHandles hx (named.trans same), houtlet, hinlet,
      hout.sign_eq, hin.sign_eq, token]

end Rewired

end Scene

end Patchbay
