import Patchbay.Patch.Basic
import Patchbay.Proofs.Store

/-!
# Boxes in line with nodes

Dropping what is not listed leaves at most one box for each node. Then the nodes are shown one
after the other: after `i` of them the first `i` nodes have their boxes, with their places, and the
boxes that are still being typed are as they were.
-/

namespace Patchbay

open Keyed (keys)

/-- What a box takes from the node that it shows, its place among the nodes included. -/
structure Box.Shows (b : Box) (handle : Nat) (n : Node) (index : Nat) : Prop where
  handle : b.handle = some handle
  kind : b.kind = n.kind
  position : b.content.position = n.bounds.position
  inlets : b.inlets.map Jack.signal = n.inlets
  outlets : b.outlets.map Jack.signal = n.outlets
  inletCount : b.inletCount = n.inlets.length
  outletCount : b.outletCount = n.outlets.length
  index : b.index = some index

namespace Box

theorem Shows.length_inlets {b : Box} {h i : Nat} {n : Node} (shows : b.Shows h n i) :
    (b.jacks .inlet).length = n.inlets.length := by
  have length : b.inlets.length = n.inlets.length := by
    simpa using congrArg List.length shows.inlets
  simp [jacks, group, count, length, shows.inletCount]

theorem Shows.length_outlets {b : Box} {h i : Nat} {n : Node} (shows : b.Shows h n i) :
    (b.jacks .outlet).length = n.outlets.length := by
  have length : b.outlets.length = n.outlets.length := by
    simpa using congrArg List.length shows.outlets
  simp [jacks, group, count, length, shows.outletCount]

theorem position_reduced_expanded (r : Rect) (m : Int) :
    ((r.expanded m).reduced m).position = r.position := by
  simp only [Rect.position, Rect.reduced, Rect.expanded, Point.mk.injEq]
  omega

theorem map_signal_inlets (b : Box) (ins outs : List Bool) :
    (b.fitJacks ins outs).inlets.map Jack.signal = ins := by
  have signals := Jack.map_place (g := Jack.signal) (fun _ _ => rfl)
  simp only [fitJacks, resizeGroups, layoutJacks, inlets, List.map_take, signals, List.map_append,
    Jack.map_signal_fit, Jack.length_fit, List.take_left]

theorem map_signal_outlets (b : Box) (ins outs : List Bool) :
    (b.fitJacks ins outs).outlets.map Jack.signal = outs := by
  have signals := Jack.map_place (g := Jack.signal) (fun _ _ => rfl)
  simp only [fitJacks, resizeGroups, layoutJacks, outlets, List.map_drop, signals, List.map_append,
    Jack.map_signal_fit, Jack.length_fit, List.drop_left]

theorem inletCount_fitJacks (b : Box) (ins outs : List Bool) :
    (b.fitJacks ins outs).inletCount = ins.length :=
  Jack.length_fit ..

theorem outletCount_fitJacks (b : Box) (ins outs : List Bool) :
    (b.fitJacks ins outs).outletCount = outs.length :=
  Jack.length_fit ..

theorem handle_refresh (b : Box) (info : NodeInfo) : (b.refresh info).handle = b.handle := rfl

theorem editing_refresh (b : Box) (info : NodeInfo) : (b.refresh info).editing = b.editing := rfl

theorem shows_ofInfo (h : Nat) (n : Node) (i : Nat) : (ofInfo h n.info i).Shows h n i where
  handle := rfl
  kind := by
    simp only [kind, ofInfo, fitJacks, resizeGroups, layoutJacks, Node.info, Widget.kind_ofKind]
  position := position_reduced_expanded n.bounds margin
  inlets := map_signal_inlets _ n.inlets n.outlets
  outlets := map_signal_outlets _ n.inlets n.outlets
  inletCount := inletCount_fitJacks _ n.inlets n.outlets
  outletCount := outletCount_fitJacks _ n.inlets n.outlets
  index := rfl

theorem shows_refresh {b : Box} {h : Nat} (named : b.handle = some h) (n : Node) (i : Nat) :
    Shows { b.refresh n.info with index := some i } h n i where
  handle := (handle_refresh b n.info).trans named
  kind := by
    simp only [kind, refresh, dress, fitJacks, resizeGroups, layoutJacks, Node.info,
      Widget.kind_ofKind]
  position := position_reduced_expanded n.bounds margin
  inlets := map_signal_inlets (b.dress n.info) n.inlets n.outlets
  outlets := map_signal_outlets (b.dress n.info) n.inlets n.outlets
  inletCount := inletCount_fitJacks (b.dress n.info) n.inlets n.outlets
  outletCount := outletCount_fitJacks (b.dress n.info) n.inlets n.outlets
  index := rfl

end Box

namespace Scene

def handles (s : Scene) : List Nat := s.boxes.filterMap (·.2.handle)

/-- What holds of every scene of a canvas that keeps to one document: the order lists are exact, handles
occur once, and the boxes without a handle are those that are being typed. These have no place in a
document: they are made without one, and nothing gives them one while they have no handle. -/
structure WellFormed (s : Scene) : Prop where
  boxOrder : s.boxArena.Exact
  cableOrder : s.cableArena.Exact
  handles : s.handles.Nodup
  cableHandles : (s.cables.map (·.2.handle)).Nodup
  editing : ∀ e ∈ s.boxes, e.2.editing = true ↔ e.2.handle = none
  unplaced : ∀ e ∈ s.boxes, e.2.handle = none → e.2.index = none

theorem wellFormed_empty : WellFormed {} :=
  ⟨.empty, .empty, by decide +kernel, by decide +kernel, by decide +kernel, by decide +kernel⟩

theorem WellFormed.boxes {s : Scene} (wf : s.WellFormed) : (keys s.boxes).Nodup :=
  wf.boxOrder.nodup_keys

def blanks (s : Scene) : Keyed Box := s.boxes.filter (·.2.handle.isNone)

variable {s : Scene} {h k : Nat} {b : Box} {l : Listing}

theorem eq_of_handle {xs : Keyed Box} (nodup : (xs.filterMap (·.2.handle)).Nodup) {x y : Nat × Box}
    (hx : x ∈ xs) (hy : y ∈ xs) (hxh : x.2.handle = some h) (hyh : y.2.handle = some h) : x = y := by
  induction xs with
  | nil => exact absurd hx List.not_mem_nil
  | cons z zs ih =>
    have away {w : Nat × Box} (hz : z.2.handle = some h) (hw : w ∈ zs) (hwh : w.2.handle = some h) :
        False := by
      simp only [List.filterMap_cons, hz, List.nodup_cons] at nodup
      exact nodup.1 (List.mem_filterMap.2 ⟨w, hw, hwh⟩)
    have rest : (zs.filterMap (·.2.handle)).Nodup :=
      nodup.sublist ((List.sublist_cons_self z zs).filterMap _)
    rcases List.mem_cons.1 hx with rfl | hx' <;> rcases List.mem_cons.1 hy with rfl | hy'
    · rfl
    · exact (away hxh hy' hyh).elim
    · exact (away hyh hx' hxh).elim
    · exact ih rest hx' hy'

theorem hasNode_of_isLive (editing : b.editing = true ↔ b.handle = none) (named : b.handle = some h)
    (live : isLive l b = true) : l.hasNode h = true := by
  have idle : b.editing = false := by
    simpa [named] using editing
  simpa [isLive, idle, named] using live

/-- A scene in which the first `i` nodes are shown and whose blank boxes are the given ones. -/
structure Staged (nodes : Keyed Node) (blanks : Keyed Box) (i : Nat) (s : Scene) : Prop where
  boxOrder : s.boxArena.Exact
  handles : s.handles.Nodup
  blanks : s.blanks = blanks
  editing : ∀ e ∈ s.boxes, e.2.editing = true ↔ e.2.handle = none
  unplaced : ∀ e ∈ s.boxes, e.2.handle = none → e.2.index = none
  listed : ∀ e ∈ s.boxes, ∀ h, e.2.handle = some h → h ∈ keys nodes
  shown : ∀ j < i, ∀ h n, nodes[j]? = some (h, n) → ∃ e ∈ s.boxes, e.2.Shows h n j

theorem hasNode_listing {c : Contents} : c.listing.hasNode h = true ↔ h ∈ keys c.nodes := by
  simp only [Listing.hasNode, Contents.listing, List.any_map, List.any_eq_true, Function.comp,
    beq_iff_eq]
  constructor
  · rintro ⟨⟨a, i⟩, ha, rfl⟩
    exact List.fst_mem_of_mem_zipIdx ha
  · intro hh
    obtain ⟨i, hi⟩ := List.mem_iff_getElem?.1 hh
    exact ⟨(h, i), List.mem_zipIdx_iff_getElem?.2 hi, rfl⟩

theorem WellFormed.blanks_prune (wf : s.WellFormed) (l : Listing) :
    (s.prune l).blanks = s.blanks := by
  rw [blanks, boxes_prune, List.filter_filter, blanks]
  apply List.filter_congr
  intro e he
  cases named : e.2.handle with
  | none => simp [isLive, (wf.editing e he).2 named]
  | some h => simp

theorem WellFormed.staged (wf : s.WellFormed) (c : Contents) :
    Staged c.nodes s.blanks 0 (s.prune c.listing) := by
  have hboxes := boxes_prune c.listing s
  have hsub : (s.prune c.listing).boxes.Sublist s.boxes := hboxes ▸ List.filter_sublist
  have handles : (s.prune c.listing).handles.Sublist s.handles := by
    unfold Scene.handles
    exact hsub.filterMap _
  refine ⟨?_, wf.handles.sublist handles, wf.blanks_prune c.listing, ?_, ?_, ?_, ?_⟩
  · rw [boxArena_prune]
    exact wf.boxOrder.foldl_remove _
  · intro e he
    exact wf.editing e (hsub.subset he)
  · intro e he
    exact wf.unplaced e (hsub.subset he)
  · intro e he h hh
    rw [hboxes] at he
    obtain ⟨he, hlive⟩ := List.mem_filter.1 he
    exact hasNode_listing.1 (hasNode_of_isLive (wf.editing e he) hh hlive)
  · intro j hj
    exact absurd hj (Nat.not_lt_zero j)

theorem Staged.nodup {nodes : Keyed Node} {bs : Keyed Box} {i : Nat} (staged : Staged nodes bs i s) :
    (keys s.boxes).Nodup :=
  staged.boxOrder.nodup_keys

theorem mem_of_ownerOf? (owner : s.ownerOf? h = some k) :
    ∃ b, (k, b) ∈ s.boxes ∧ b.handle = some h := by
  obtain ⟨e, he, rfl⟩ := Option.map_eq_some_iff.1 owner
  have hmem := List.mem_reverse.1 (List.mem_of_find?_eq_some he)
  exact ⟨e.2, hmem, by simpa using List.find?_some he⟩

theorem ownerOf?_eq_none : s.ownerOf? h = none ↔ ∀ e ∈ s.boxes, e.2.handle ≠ some h := by
  simp [ownerOf?]

theorem handles_updateBox {f : Box → Box} (same : ∀ b, (f b).handle = b.handle) :
    (s.updateBox k f).handles = s.handles := by
  simp only [handles, boxes_updateBox, Keyed.update, List.filterMap_map]
  apply List.filterMap_congr
  intro e _
  by_cases hk : e.1 = k <;> simp [hk, same]

variable {nodes : Keyed Node} {blanks : Keyed Box} {i : Nat} {n : Node}

theorem Staged.update (staged : Staged nodes blanks i s) (nodup : (keys nodes).Nodup)
    (there : nodes[i]? = some (h, n)) (mem : (k, b) ∈ s.boxes) (named : b.handle = some h)
    {f : Box → Box} (same : ∀ b, (f b).handle = b.handle)
    (idle : ∀ b, (f b).editing = b.editing) (shows : (f b).Shows h n i) :
    Staged nodes blanks (i + 1) (s.updateBox k f) := by
  have hboxes := s.boxes_updateBox k f
  have mine {a : Box} (ha : (k, a) ∈ s.boxes) : a.handle = some h :=
    Keyed.eq_of_mem staged.nodup mem ha ▸ named
  refine ⟨staged.boxOrder.update k f, ?_, ?_, ?_, ?_, ?_, ?_⟩
  · rw [handles_updateBox same]
    exact staged.handles
  · rw [← staged.blanks, Scene.blanks, Scene.blanks, hboxes]
    refine Keyed.filter_update (p := fun b : Box => b.handle.isNone) fun a ha => ?_
    simp [same, mine ha]
  · intro e he
    rw [hboxes] at he
    rcases Keyed.of_mem_update he with ⟨he, -⟩ | ⟨a, ha, rfl⟩
    · exact staged.editing e he
    · rw [same, idle]
      exact staged.editing (k, a) ha
  · intro e he hnone
    rw [hboxes] at he
    rcases Keyed.of_mem_update he with ⟨he, -⟩ | ⟨a, ha, rfl⟩
    · exact staged.unplaced e he hnone
    · rw [same, mine ha] at hnone
      exact absurd hnone (by simp)
  · intro e he g hg
    rw [hboxes] at he
    rcases Keyed.of_mem_update he with ⟨he, -⟩ | ⟨a, ha, rfl⟩
    · exact staged.listed e he g hg
    · rw [same] at hg
      exact staged.listed (k, a) ha g hg
  · intro j hj g m hm
    rw [hboxes]
    by_cases hlast : j = i
    · subst hlast
      obtain ⟨rfl, rfl⟩ := Prod.mk.inj (Option.some.inj (there.symm.trans hm))
      exact ⟨_, Keyed.mem_update_self f mem, shows⟩
    · obtain ⟨⟨k', a⟩, he, hshows⟩ := staged.shown j (by omega) g m hm
      refine ⟨_, Keyed.mem_update_of_ne f he ?_, hshows⟩
      -- The boxes of two nodes have different handles, and so different keys.
      rintro rfl
      have hgh : g = h := Option.some.inj (hshows.handle.symm.trans (mine he))
      have hji := Keyed.getElem?_inj nodup hm (hgh ▸ there)
      exact hlast hji

theorem Staged.add (staged : Staged nodes blanks i s) (there : nodes[i]? = some (h, n))
    (fresh : ∀ e ∈ s.boxes, e.2.handle ≠ some h) (idle : b.editing = false)
    (shows : b.Shows h n i) :
    Staged nodes blanks (i + 1) (s.addBox b).2 := by
  have hboxes := boxes_addBox staged.boxOrder b
  have hnamed := shows.handle
  have mem {e : Nat × Box} (he : e ∈ (s.addBox b).2.boxes) : e ∈ s.boxes ∨ e = (s.nextBox, b) := by
    simpa [hboxes] using he
  refine ⟨staged.boxOrder.insert b, ?_, ?_, ?_, ?_, ?_, ?_⟩
  · have hhandles : (s.addBox b).2.handles = s.handles ++ [h] := by
      simp [Scene.handles, hboxes, hnamed]
    rw [hhandles]
    apply staged.handles.append (List.nodup_singleton _)
    intro g hg hgh
    rw [List.mem_singleton.1 hgh] at hg
    obtain ⟨e, he, hhe⟩ := List.mem_filterMap.1 hg
    exact fresh e he hhe
  · rw [← staged.blanks]
    simp [Scene.blanks, hboxes, hnamed]
  · intro e he
    rcases mem he with he | rfl
    · exact staged.editing e he
    · simp [idle, hnamed]
  · intro e he hnone
    rcases mem he with he | rfl
    · exact staged.unplaced e he hnone
    · rw [hnamed] at hnone
      exact absurd hnone (by simp)
  · intro e he g hg
    rcases mem he with he | rfl
    · exact staged.listed e he g hg
    · obtain rfl : h = g := Option.some.inj (hnamed.symm.trans hg)
      exact List.mem_map.2 ⟨(h, n), List.mem_of_getElem? there, rfl⟩
  · intro j hj g m hm
    rw [hboxes]
    by_cases hlast : j = i
    · subst hlast
      obtain ⟨rfl, rfl⟩ := Prod.mk.inj (Option.some.inj (there.symm.trans hm))
      exact ⟨(s.nextBox, b), by simp, shows⟩
    · obtain ⟨e, he, hshows⟩ := staged.shown j (by omega) g m hm
      exact ⟨e, List.mem_append_left _ he, hshows⟩

theorem Staged.raise (staged : Staged nodes blanks i s) (k : Nat) :
    Staged nodes blanks i (s.raise k) := by
  have hboxes := boxes_raise s k
  obtain ⟨boxOrder, handles, hblanks, editing, unplaced, listed, shown⟩ := staged
  refine ⟨boxArena_raise s k ▸ boxOrder, ?_, ?_, hboxes ▸ editing, hboxes ▸ unplaced,
    hboxes ▸ listed, hboxes ▸ shown⟩
  · rw [Scene.handles, hboxes]
    exact handles
  · rw [Scene.blanks, hboxes]
    exact hblanks

theorem showNode_cases (info : l.info h = some n.info) (report : SyncReport) (i : Nat) :
    (∃ k b, s.ownerOf? h = some k ∧ (k, b) ∈ s.boxes ∧ b.handle = some h ∧
      (showNode l (s, report) ⟨h, i⟩).1
        = (s.updateBox k fun b => { b.refresh n.info with index := some i }).raise k) ∨
    (∀ e ∈ s.boxes, e.2.handle ≠ some h) ∧
      (showNode l (s, report) ⟨h, i⟩).1 = (s.addBox (Box.ofInfo h n.info i)).2.raise s.nextBox := by
  cases howner : s.ownerOf? h with
  | some k =>
    obtain ⟨b, mem, named⟩ := mem_of_ownerOf? howner
    refine Or.inl ⟨k, b, rfl, mem, named, ?_⟩
    simp only [showNode, info, howner]
  | none =>
    refine Or.inr ⟨ownerOf?_eq_none.1 howner, ?_⟩
    simp only [showNode, info, howner]
    rfl

theorem cableArena_showNode (l : Listing) (state : Scene × SyncReport) (e : NodeEntry) :
    (showNode l state e).1.cableArena = state.1.cableArena := by
  obtain ⟨s, report⟩ := state
  simp only [showNode]
  split
  · rfl
  · split <;> exact cableArena_raise _ _

theorem cableArena_showNodes (l : Listing) (state : Scene × SyncReport) :
    (showNodes l state).1.cableArena = state.1.cableArena :=
  List.foldlRecOn (motive := fun t : Scene × SyncReport => t.1.cableArena = state.1.cableArena) _ _
    rfl fun t same e _ => (cableArena_showNode l t e).trans same

theorem Staged.showNode (staged : Staged nodes blanks i s) (nodup : (keys nodes).Nodup)
    (there : nodes[i]? = some (h, n)) (info : l.info h = some n.info) (report : SyncReport) :
    Staged nodes blanks (i + 1) (Scene.showNode l (s, report) ⟨h, i⟩).1 := by
  rcases showNode_cases info report i with ⟨k, b, -, mem, named, hs⟩ | ⟨fresh, hs⟩
  · have refreshed := staged.update (f := fun b => { b.refresh n.info with index := some i }) nodup
      there mem named (fun a => a.handle_refresh n.info) (fun a => a.editing_refresh n.info)
      (Box.shows_refresh named n i)
    rw [hs]
    exact refreshed.raise k
  · rw [hs]
    exact (staged.add there fresh rfl (Box.shows_ofInfo h n i)).raise _

theorem firstNodes_eq_self {seen : List Nat} {es : List NodeEntry}
    (nodup : (es.map (·.handle)).Nodup) (unseen : ∀ e ∈ es, e.handle ∉ seen) :
    Listing.firstNodes seen es = es := by
  induction es generalizing seen with
  | nil => rfl
  | cons e es ih =>
    rw [List.map_cons, List.nodup_cons] at nodup
    obtain ⟨he, hes⟩ := List.forall_mem_cons.1 unseen
    rw [Listing.firstNodes, if_neg (by simpa using he), ih nodup.2]
    intro f hf hmem
    rcases List.mem_cons.1 hmem with heq | hmem
    · exact nodup.1 (heq ▸ List.mem_map_of_mem hf)
    · exact hes f hf hmem

def entriesFrom (i : Nat) (nodes : Keyed Node) : List NodeEntry :=
  ((keys nodes).zipIdx i).map fun (h, j) => ⟨h, j⟩

theorem firstNodes_listing {c : Contents} (nodup : (keys c.nodes).Nodup) :
    Listing.firstNodes [] c.listing.nodes = entriesFrom 0 c.nodes := by
  have hhandles : c.listing.nodes.map (·.handle) = keys c.nodes := by
    simp [Contents.listing, Function.comp_def]
  exact firstNodes_eq_self (hhandles ▸ nodup) fun e _ => List.not_mem_nil

section Induction

variable {c : Contents} {motive : Nat → Scene → Prop}

theorem foldl_showNode_induction {rest : Keyed Node} (nodup : (keys c.nodes).Nodup)
    (step : ∀ i h n s report, c.nodes[i]? = some (h, n) → c.listing.info h = some n.info →
      motive i s → motive (i + 1) (showNode c.listing (s, report) ⟨h, i⟩).1)
    (start : motive i s) (left : c.nodes.drop i = rest) (report : SyncReport) :
    motive (i + rest.length) ((entriesFrom i rest).foldl (showNode c.listing) (s, report)).1 := by
  induction rest generalizing i s report with
  | nil => exact start
  | cons x rest ih =>
    obtain ⟨h, n⟩ := x
    have there : c.nodes[i]? = some (h, n) := by
      rw [← List.head?_drop, left, List.head?_cons]
    have info : c.listing.info h = some n.info := by
      have hnode : c.node? h = some n := Keyed.get?_of_mem nodup (List.mem_of_getElem? there)
      simp only [Contents.listing, hnode, Option.map_some]
    have left' : c.nodes.drop (i + 1) = rest := by
      rw [← List.tail_drop, left, List.tail_cons]
    have hfold : (entriesFrom i ((h, n) :: rest)).foldl (showNode c.listing) (s, report)
        = (entriesFrom (i + 1) rest).foldl (showNode c.listing)
          (showNode c.listing (s, report) ⟨h, i⟩) := rfl
    rw [hfold, List.length_cons, Nat.add_comm rest.length, ← Nat.add_assoc]
    exact ih (step i h n s report there info start) left' _

theorem showNodes_induction (nodup : (keys c.nodes).Nodup)
    (step : ∀ i h n s report, c.nodes[i]? = some (h, n) → c.listing.info h = some n.info →
      motive i s → motive (i + 1) (showNode c.listing (s, report) ⟨h, i⟩).1)
    (start : motive 0 s) (report : SyncReport) :
    motive c.nodes.length (showNodes c.listing (s, report)).1 := by
  rw [showNodes, firstNodes_listing nodup]
  simpa using foldl_showNode_induction nodup step start List.drop_zero report

end Induction

theorem Staged.showNodes {c : Contents} (nodup : (keys c.nodes).Nodup)
    (staged : Staged c.nodes blanks 0 s) (report : SyncReport) :
    Staged c.nodes blanks c.nodes.length (Scene.showNodes c.listing (s, report)).1 :=
  showNodes_induction nodup
    (fun _ _ _ _ report there info staged => staged.showNode nodup there info report) staged report

end Scene

end Patchbay
