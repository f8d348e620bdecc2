import Patchbay.Patch.Edit
import Patchbay.Proofs.Cables

/-!
# Reconciliation reaches the document

Whatever a scene held before and however malformed the wires of the document are, afterwards the
scene shows the nodes in their order and draws the first entry of each wire whose ends are there,
and nothing else but the boxes that are still being typed.
-/

namespace Patchbay

open Keyed (keys)

/-- Whether both jacks that the ends of a wire name are in the document. -/
def Contents.Resolves (c : Contents) (e : Ends) : Prop :=
  (∃ n, c.node? e.outletOwner = some n ∧ e.outlet < n.outlets.length) ∧
    ∃ n, c.node? e.inletOwner = some n ∧ e.inlet < n.inlets.length

namespace Scene

/-- A scene that shows the contents of a document and, behind them, some blank boxes. -/
structure InLine (c : Contents) (blanks : Keyed Box) (s : Scene) : Prop where
  boxes : ∃ shown, s.boxes = shown ++ blanks ∧
    List.Forall₂ (fun e x => ∃ j, e.2.Shows x.1 x.2 j) shown c.nodes
  handles : s.handles.Nodup
  cableHandles : (s.cables.map (·.2.handle)).Nodup
  listed : ∀ x ∈ s.cables, ∃ w ∈ c.wires, w.handle = x.2.handle
  wired : ∀ x ∈ s.cables, (s.jack? x.2.outlet).isSome = true ∧ (s.jack? x.2.inlet).isSome = true
  drawn : ∀ w, c.wire? w.handle = some w → c.Resolves w.ends →
    ∃ x, s.cables.filter (·.2.handle == w.handle) = [x] ∧ Joins s.boxes x.2 w.ends

variable {s t : Scene} {c : Contents} {blanks : Keyed Box}

theorem filter_eq_singleton {α : Type} {f : α → Nat} {xs : List α} {x : α}
    (nodup : (xs.map f).Nodup) (mem : x ∈ xs) : xs.filter (f · == f x) = [x] := by
  induction xs with
  | nil => exact absurd mem List.not_mem_nil
  | cons y ys ih =>
    rw [List.map_cons, List.nodup_cons] at nodup
    rcases List.mem_cons.1 mem with rfl | mem
    · have hrest : ys.filter (f · == f x) = [] := by
        refine List.filter_eq_nil_iff.2 fun z hz same => nodup.1 ?_
        exact List.mem_map.2 ⟨z, hz, by simpa using same⟩
      simp [hrest]
    · have hne : f y ≠ f x := fun same => nodup.1 (same ▸ List.mem_map_of_mem mem)
      simp [hne, ih nodup.2 mem]

theorem Staged.owns (staged : Staged c.nodes blanks c.nodes.length s) :
    Owns s.ownerOf? s.sortBoxes.boxes := by
  intro g k
  constructor
  · intro owner
    obtain ⟨b, mem, named⟩ := mem_of_ownerOf? owner
    exact ⟨b, mem_sortBoxes.2 mem, named⟩
  · rintro ⟨b, mem, named⟩
    have mem := mem_sortBoxes.1 mem
    cases howner : s.ownerOf? g with
    | none => exact absurd named (ownerOf?_eq_none.1 howner _ mem)
    | some k' =>
      obtain ⟨b', mem', named'⟩ := mem_of_ownerOf? howner
      have same := eq_of_handle staged.handles mem' mem named' named
      rw [(Prod.mk.inj same).1]

theorem Staged.terminal (staged : Staged c.nodes blanks c.nodes.length s) {owner : Nat} {n : Node}
    (there : c.node? owner = some n) : ∃ k b, (k, b) ∈ s.boxes ∧ b.handle = some owner ∧
      (b.jacks .inlet).length = n.inlets.length ∧ (b.jacks .outlet).length = n.outlets.length := by
  obtain ⟨j, hj⟩ := List.mem_iff_getElem?.1 (Keyed.mem_of_get? there)
  have hlt := (List.getElem?_eq_some_iff.1 hj).1
  obtain ⟨⟨k, b⟩, mem, shows⟩ := staged.shown j hlt owner n hj
  exact ⟨k, b, mem, shows.handle, shows.length_inlets, shows.length_outlets⟩

theorem Staged.terminals (staged : Staged c.nodes blanks c.nodes.length s) {e : Ends}
    (resolves : c.Resolves e) :
    ∃ outlet inlet, Terminal s.sortBoxes.boxes e.outletOwner .outlet e.outlet outlet ∧
      Terminal s.sortBoxes.boxes e.inletOwner .inlet e.inlet inlet := by
  obtain ⟨⟨n, hn, hout⟩, m, hm, hin⟩ := resolves
  obtain ⟨k, b, mem, named, -, hlen⟩ := staged.terminal hn
  obtain ⟨k', b', mem', named', hlen', -⟩ := staged.terminal hm
  refine ⟨⟨k, .outlet, e.outlet⟩, ⟨k', .inlet, e.inlet⟩, ?_, ?_⟩
  · exact ⟨k, b, mem_sortBoxes.2 mem, named, hlen ▸ hout, rfl⟩
  · exact ⟨k', b', mem_sortBoxes.2 mem', named', hlen' ▸ hin, rfl⟩

theorem cables_prune (l : Listing) (s : Scene) :
    (s.prune l).cables.Sublist (s.cables.filter fun x => l.hasWire x.2.handle) ∧
      (s.prune l).nextCable = s.nextCable := by
  have same : (dropStaleBoxes l (s.keepCables fun c => l.hasWire c.handle)).cableArena
      = (s.keepCables fun c => l.hasWire c.handle).cableArena := cableArena_foldl_removeBox _ _
  constructor
  · rw [prune, dropOrphans, cables_keepCables, cables_congr same, cables_keepCables]
    exact List.filter_sublist
  · rw [prune, dropOrphans, nextCable_keepCables, nextCable, same]
    exact nextCable_keepCables s _

theorem exact_cables_prune (exact : s.cableArena.Exact) (l : Listing) :
    (s.prune l).cableArena.Exact := by
  refine exact_keepCables ?_ _
  rw [dropStaleBoxes, cableArena_foldl_removeBox]
  exact exact_keepCables exact _

theorem wiring_dropOrphans {l : Listing} (exact : s.cableArena.Exact)
    (handles : (s.cables.map (·.2.handle)).Nodup)
    (cables : t.cableArena = (s.prune l).cableArena) :
    Wiring l t.sortBoxes.boxArena t.sortBoxes.dropOrphans := by
  obtain ⟨hsub, -⟩ := cables_prune l s
  have left := cables_keepCables t.sortBoxes t.sortBoxes.isWired
  have hkept : t.sortBoxes.dropOrphans.cables.Sublist
      (s.cables.filter fun x => l.hasWire x.2.handle) := by
    rw [dropOrphans, left, cables_congr (t := t.sortBoxes) cables]
    exact List.filter_sublist.trans hsub
  have hold := hkept.trans List.filter_sublist
  have pruned := exact_cables_prune exact l
  have same := boxArena_keepCables t.sortBoxes t.sortBoxes.isWired
  refine ⟨same, exact_keepCables (s := t.sortBoxes) (cables ▸ pruned) _,
    handles.sublist (hold.map _), ?_, ?_⟩
  · intro x hx
    exact (List.mem_filter.1 (hkept.subset hx)).2
  · intro x hx
    rw [dropOrphans, left] at hx
    rw [dropOrphans, isWired_congr same]
    exact (List.mem_filter.1 hx).2

theorem WellFormed.wiring {l : Listing} (wf : s.WellFormed)
    (cables : t.cableArena = (s.prune l).cableArena) :
    Wiring l t.sortBoxes.boxArena t.sortBoxes.dropOrphans :=
  wiring_dropOrphans wf.cableOrder wf.cableHandles cables

theorem mem_firstWires_listing {w : Wire} (first : c.wire? w.handle = some w) :
    ⟨w.handle, w.ends⟩ ∈ Listing.firstWires [] c.listing.wires := by
  refine mem_firstWires.2 ⟨List.not_mem_nil, ?_⟩
  rw [Contents.wire?] at first
  rw [Contents.listing, List.find?_map]
  exact congrArg (Option.map _) first

theorem hasWire_listing {h : Nat} (listed : c.listing.hasWire h = true) :
    ∃ w ∈ c.wires, w.handle = h := by
  simpa [Listing.hasWire, Contents.listing] using listed

theorem showNode_fst (l : Listing) (s : Scene) (r r' : SyncReport) (e : NodeEntry) :
    (showNode l (s, r) e).1 = (showNode l (s, r') e).1 := by
  simp only [showNode]
  split
  · rfl
  · split <;> rfl

theorem skipped_showNode (l : Listing) (s : Scene) (report : SyncReport) (e : NodeEntry) :
    (showNode l (s, report) e).2.skipped = report.skipped := by
  simp only [showNode]
  split
  · rfl
  · split
    · dsimp only
      split <;> rfl
    · rfl

theorem showNodes_fst (l : Listing) (s : Scene) (r r' : SyncReport) :
    (showNodes l (s, r)).1 = (showNodes l (s, r')).1 := by
  rw [showNodes, showNodes]
  induction Listing.firstNodes [] l.nodes generalizing s r r' with
  | nil => rfl
  | cons e es ih =>
    have step := showNode_fst l s r r' e
    rw [List.foldl_cons, List.foldl_cons]
    generalize showNode l (s, r) e = t at step ⊢
    generalize showNode l (s, r') e = t' at step ⊢
    obtain ⟨t, report⟩ := t
    obtain ⟨t', report'⟩ := t'
    obtain rfl : t = t' := step
    exact ih t report report'

theorem skipped_showNodes (l : Listing) (state : Scene × SyncReport) :
    (showNodes l state).2.skipped = state.2.skipped :=
  List.foldlRecOn (motive := fun t : Scene × SyncReport => t.2.skipped = state.2.skipped) _ _ rfl
    fun t same e _ => (skipped_showNode l t.1 t.2 e).trans same

theorem skipped_purge (l : Listing) (state : Scene × SyncReport) :
    (purge l state).2.skipped = state.2.skipped := by
  have fold (ks : List Nat) (state : Scene × SyncReport) :
      (ks.foldl purgeBox state).2.skipped = state.2.skipped :=
    List.foldlRecOn (motive := fun t : Scene × SyncReport => t.2.skipped = state.2.skipped) _ _ rfl
      fun _ same _ _ => same
  exact fold _ (purgeCables (fun _ c => l.hasWire c.handle) state)

theorem reconcile_of_showNodes {l : Listing}
    (shown : (showNodes l (s.prune l, {})).1 = t) : ∃ report : SyncReport, report.skipped = 0 ∧
      s.reconcile l = showWires l t.ownerOf? (t.sortBoxes.dropOrphans, report) := by
  have same : (showNodes l (purge l (s, {}))).1 = t := by
    rw [← shown, ← purge_fst l (s, {})]
    exact showNodes_fst l _ _ _
  have skipped : (showNodes l (purge l (s, {}))).2.skipped = 0 :=
    (skipped_showNodes l _).trans (skipped_purge l _)
  rw [reconcile]
  generalize showNodes l (purge l (s, {})) = state at same skipped
  obtain ⟨t', report⟩ := state
  obtain rfl : t' = t := same
  exact ⟨(purgeCables isWired (t'.sortBoxes, report)).2, skipped, rfl⟩

/-- Reconciling goes through a scene in which every node is shown, and draws the wires there. -/
theorem WellFormed.reconciled (wf : s.WellFormed) (nodup : (keys c.nodes).Nodup) :
    ∃ t, Staged c.nodes s.blanks c.nodes.length t ∧
      Wiring c.listing t.sortBoxes.boxArena (s.reconcile c.listing).1 ∧
      ∀ w, c.wire? w.handle = some w → c.Resolves w.ends →
        (s.reconcile c.listing).1.Draws ⟨w.handle, w.ends⟩ := by
  have staged := (wf.staged c).showNodes nodup {}
  have cables := cableArena_showNodes c.listing (s.prune c.listing, {})
  generalize shown : (showNodes c.listing (s.prune c.listing, {})).1 = t at staged cables
  obtain ⟨report, -, hrec⟩ := reconcile_of_showNodes shown
  have start : Wiring c.listing t.sortBoxes.boxArena t.sortBoxes.dropOrphans := wf.wiring cables
  obtain ⟨wiring, hdrawn, -⟩ := start.foldl staged.owns.names (listed_firstWires c.listing)
    (distinct_firstWires [] c.listing.wires) report
  rw [hrec, showWires]
  refine ⟨t, staged, wiring, fun w first resolves => ?_⟩
  obtain ⟨outlet, inlet, hout, hin⟩ := staged.terminals resolves
  have same : t.sortBoxes.dropOrphans.boxes = t.sortBoxes.boxes := boxes_congr start.boxes
  rw [← same] at hout hin
  exact hdrawn _ (mem_firstWires_listing first) outlet inlet
    (Owns.resolveEnds? (same ▸ staged.owns) hout hin)

theorem WellFormed.reconcile (wf : s.WellFormed) (nodup : (keys c.nodes).Nodup) :
    (s.reconcile c.listing).1.WellFormed := by
  obtain ⟨t, staged, wiring, -⟩ := wf.reconciled nodup
  generalize (s.reconcile c.listing).1 = u at wiring ⊢
  have perm : u.boxes.Perm t.boxes := by
    rw [boxes_congr (t := u) (s := t.sortBoxes) wiring.boxes]
    exact perm_sortBoxes t
  refine ⟨wiring.boxes ▸ exact_sortBoxes staged.boxOrder, wiring.cables,
    (perm.filterMap _).nodup_iff.2 staged.handles, wiring.handles, ?_, ?_⟩
  · intro e he
    exact staged.editing e (perm.mem_iff.1 he)
  · intro e he
    exact staged.unplaced e (perm.mem_iff.1 he)

/-- Reconciled with a document, a scene shows it, and keeps the boxes that are being typed. -/
theorem reconcile_inLine (s : Scene) (wf : s.WellFormed) (p : Patch)
    (nodup : (keys p.nodes).Nodup) :
    (s.reconcile (Document.listing (Document.deliver (Document.deliver p)))).1.InLine p.toContents
      s.blanks := by
  change (s.reconcile p.toContents.listing).1.InLine p.toContents s.blanks
  have stays := wf.reconcile (c := p.toContents) nodup
  obtain ⟨t, staged, wiring, hdrawn⟩ := wf.reconciled (c := p.toContents) nodup
  generalize (s.reconcile p.toContents.listing).1 = u at stays wiring hdrawn ⊢
  obtain ⟨shown, hsorted, hshows⟩ := staged.boxes_sortBoxes
  have boxes : u.boxes = t.sortBoxes.boxes := boxes_congr wiring.boxes
  refine ⟨⟨shown, boxes.trans hsorted, hshows⟩, stays.handles, stays.cableHandles, ?_, ?_,
    ?_⟩
  · intro x hx
    exact hasWire_listing (wiring.listed x hx)
  · intro x hx
    simpa [isWired] using wiring.wired x hx
  · intro w first resolves
    obtain ⟨x, hx, hhandle, joins⟩ := hdrawn w first resolves
    refine ⟨x, ?_, joins⟩
    have hone := filter_eq_singleton (f := fun y : Nat × Cable => y.2.handle) wiring.handles hx
    rw [hhandle] at hone
    exact hone

end Scene

/-- Two nodes and a wire between them; the other wires repeat its handle, name a node that is not
there, and name an outlet that is not there. -/
def Patch.tangled : Patch where
  nodes := [(1, ⟨"osc~", ⟨0, 0, 40, 20⟩, [false], [true]⟩),
    (2, ⟨"dac~", ⟨0, 90, 40, 20⟩, [true], []⟩)]
  wires := [⟨3, ⟨1, 0, 2, 0⟩, ""⟩, ⟨3, ⟨2, 0, 1, 0⟩, ""⟩,
    ⟨4, ⟨7, 0, 2, 0⟩, ""⟩, ⟨5, ⟨1, 4, 2, 0⟩, ""⟩]
  next := 6

/-- A blank box, the box of a node that is gone, the box of another, and a cable between the two. -/
def Scene.outdated : Scene where
  boxArena := (({} : Arena Box).insert (.blank ⟨5, 5⟩)).insert
    (.ofInfo 9 ⟨"noise~", ⟨9, 9, 50, 20⟩, [], [true]⟩ 0) |>.insert
    (.ofInfo 2 ⟨"adc~", ⟨9, 9, 50, 20⟩, [true, true], []⟩ 1)
  cableArena := ({} : Arena Cable).insert
    { handle := 3, outlet := ⟨2, .outlet, 0⟩, inlet := ⟨3, .inlet, 1⟩ }

theorem Scene.reconcile_outdated : outdated.WellFormed ∧ (keys Patch.tangled.nodes).Nodup ∧
    (outdated.reconcile
      (Document.listing (Document.deliver (Document.deliver Patch.tangled)))).1.InLine
        Patch.tangled.toContents outdated.blanks := by
  have wf : outdated.WellFormed :=
    ⟨((Arena.Exact.empty.insert _).insert _).insert _, Arena.Exact.empty.insert _,
      by decide +kernel, by decide +kernel, by decide +kernel, by decide +kernel⟩
  have nodup : (keys Patch.tangled.nodes).Nodup := by decide
  exact ⟨wf, nodup, reconcile_inLine outdated wf Patch.tangled nodup⟩

end Patchbay
