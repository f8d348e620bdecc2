import Patchbay.Proofs.Redraw
import Patchbay.Proofs.Renewal

/-!
# Scenes with nothing to catch up on

A settled scene is in line with a document down to the last detail: every box and every cable is up
to date, and the boxes of the nodes lie on top in the order of the document. Reconciling leaves a
settled scene, and reconciling a settled scene leaves it as it is.
-/

namespace Patchbay.Scene

open Keyed (keys)

variable {c : Contents} {s t : Scene} {shown blanks : Keyed Box} {l : Listing}
  {owner owner' : Nat → Option Nat} {boxes : Keyed Box} {h j k : Nat} {n : Node} {e : Nat × Box}

theorem Owns.unique (owns : Owns owner boxes) (owns' : Owns owner' boxes) : owner = owner' := by
  funext g
  refine Option.ext fun k => ?_
  rw [owns g k, owns' g k]

theorem WellFormed.owns (wf : s.WellFormed) : Owns s.ownerOf? s.boxes := by
  intro g k
  constructor
  · intro owner
    obtain ⟨b, mem, named⟩ := mem_of_ownerOf? owner
    exact ⟨b, mem, named⟩
  · rintro ⟨b, mem, named⟩
    cases howner : s.ownerOf? g with
    | none => exact absurd named (ownerOf?_eq_none.1 howner _ mem)
    | some k' =>
      obtain ⟨b', mem', named'⟩ := mem_of_ownerOf? howner
      have same := eq_of_handle wf.handles mem' mem named' named
      rw [(Prod.mk.inj same).1]

def unresolved (owner : Nat → Option Nat) (s : Scene) (es : List WireEntry) : Nat :=
  es.countP fun e => (s.resolveEnds? owner e.ends).isNone

theorem boxArena_showWire (l : Listing) (owner : Nat → Option Nat) (s : Scene)
    (report : SyncReport) (e : WireEntry) :
    (showWire l owner (s, report) e).1.boxArena = s.boxArena := by
  simp only [showWire]
  split
  · rfl
  · split
    · rfl
    · split
      · rfl
      · split
        · rfl
        · split <;> rfl

theorem skipped_showWire (l : Listing) (owner : Nat → Option Nat) (s : Scene) (report : SyncReport)
    (e : WireEntry) : (showWire l owner (s, report) e).2.skipped
      = report.skipped + if (s.resolveEnds? owner e.ends).isNone then 1 else 0 := by
  simp only [showWire]
  split
  · next hends => simp [hends]
  · next hends =>
    simp only [hends, Option.isNone_some, Bool.false_eq_true, if_false, Nat.add_zero]
    split
    · rfl
    · split
      · rfl
      · split
        · rfl
        · split
          · rfl
          · dsimp only
            split <;> rfl

theorem skipped_foldl (l : Listing) (owner : Nat → Option Nat) (s : Scene) (report : SyncReport)
    (es : List WireEntry) : (es.foldl (showWire l owner) (s, report)).2.skipped
      = report.skipped + s.unresolved owner es := by
  induction es generalizing s report with
  | nil => rfl
  | cons e es ih =>
    have hskip := skipped_showWire l owner s report e
    have hboxes := boxArena_showWire l owner s report e
    rw [List.foldl_cons]
    generalize showWire l owner (s, report) e = t at hskip hboxes
    obtain ⟨t, report'⟩ := t
    have same : t.unresolved owner es = s.unresolved owner es :=
      List.countP_congr fun f _ => by rw [resolveEnds?_congr hboxes]
    rw [ih, hskip, same, unresolved, unresolved, List.countP_cons]
    omega

/-- How a scene is reconciled: in `t` the nodes are shown by the boxes `shown`, and the wires are
drawn into what is left of it. -/
structure Course (c : Contents) (s : Scene) (shown : Keyed Box) (t : Scene) (report : SyncReport) :
    Prop where
  staged : Staged c.nodes s.blanks c.nodes.length t
  all : shown.length = c.nodes.length
  renewed : Renewed c.nodes (s.prune c.listing) shown t
  cables : t.cableArena = (s.prune c.listing).cableArena
  wiring : Wiring c.listing t.sortBoxes.boxArena t.sortBoxes.dropOrphans
  skipped : report.skipped = 0
  reconcile : s.reconcile c.listing
    = showWires c.listing t.ownerOf? (t.sortBoxes.dropOrphans, report)

theorem WellFormed.course (wf : s.WellFormed) (nodup : (keys c.nodes).Nodup) :
    ∃ shown t report, Course c s shown t report := by
  have staged₀ := wf.staged c
  have staged := staged₀.showNodes nodup {}
  have cables := cableArena_showNodes c.listing (s.prune c.listing, {})
  obtain ⟨shown, hlen, renewed⟩ := Renewed.showNodes nodup staged₀ {}
  generalize hshown : (showNodes c.listing (s.prune c.listing, {})).1 = t at staged cables renewed
  obtain ⟨report, hskip, hrec⟩ := reconcile_of_showNodes hshown
  exact ⟨shown, t, report, staged, hlen, renewed, cables, wf.wiring cables, hskip, hrec⟩

theorem Course.redrawn {report : SyncReport} (course : Course c s shown t report) :
    Redrawn c.listing t.ownerOf? t.sortBoxes.dropOrphans (Listing.firstWires [] c.listing.wires)
        (s.reconcile c.listing).1 ∧
      Wiring c.listing t.sortBoxes.boxArena (s.reconcile c.listing).1 := by
  have listed := listed_firstWires c.listing
  have distinct := distinct_firstWires [] c.listing.wires
  have redrawn := course.wiring.redrawn course.staged.owns.names listed distinct report
  obtain ⟨wiring, -, -⟩ := course.wiring.foldl course.staged.owns.names listed distinct report
  rw [course.reconcile, showWires]
  exact ⟨redrawn, wiring⟩

/-! ## Settled scenes -/

/-- Some boxes that show the nodes and have nothing to catch up on, in the order of the nodes. -/
def Rows (nodes : Keyed Node) (shown : Keyed Box) : Prop :=
  shown.length = nodes.length ∧ ∀ j (e : Nat × Box), shown[j]? = some e →
    ∃ h n, nodes[j]? = some (h, n) ∧ e.2.handle = some h ∧ e.2.Steady n.info j

structure Settled (c : Contents) (shown blanks : Keyed Box) (s : Scene) : Prop where
  wf : s.WellFormed
  boxes : s.boxes = shown ++ blanks
  rows : Rows c.nodes shown
  blanks : ∀ e ∈ blanks, e.2.handle = none
  layers : ∃ below, s.layers = below ++ shown.flatMap (fun e => layersOf e.1 e.2) ∧
    ∀ y ∈ below, y.key ∉ keys shown
  cables : ∀ x ∈ s.cables, c.listing.hasWire x.2.handle = true ∧ s.isWired x.2 = true
  drawn : ∀ e ∈ Listing.firstWires [] c.listing.wires, ∀ outlet inlet,
    s.resolveEnds? s.ownerOf? e.ends = some (outlet, inlet) →
      ∃ x ∈ s.cables, x.2.handle = e.handle ∧ x.2.outlet = outlet ∧ x.2.inlet = inlet ∧
        ∃ start stop, s.ends? x.2 = some (start, stop) ∧
          refreshCable x.2 ((c.listing.token e.handle).getD "") start stop = x.2

theorem Course.rows {report : SyncReport} (course : Course c s shown t report) : Rows c.nodes shown := by
  refine ⟨course.all, fun j e hj => ?_⟩
  obtain ⟨h, n, hn, renews⟩ := course.renewed.rows j e hj
  exact ⟨h, n, hn, renews.handle, renews.steady⟩

theorem Course.boxes_eq {report : SyncReport} (course : Course c s shown t report) :
    (s.reconcile c.listing).1.boxes = shown ++ s.blanks := by
  rw [boxes_congr (s := t.sortBoxes) course.redrawn.2.boxes]
  exact course.renewed.boxes_sortBoxes course.staged course.all

theorem Course.layers_eq {report : SyncReport} (course : Course c s shown t report) :
    (s.reconcile c.listing).1.layers
      = ((s.prune c.listing).layers.filter fun y => !(keys shown).contains y.key)
        ++ shown.flatMap fun e => layersOf e.1 e.2 :=
  course.redrawn.1.same.2.trans
    ((layers_keepCables t.sortBoxes t.sortBoxes.isWired).trans course.renewed.layers)

/-- Whatever it held before, a scene is settled once it is reconciled. -/
theorem WellFormed.settled (wf : s.WellFormed) (nodup : (keys c.nodes).Nodup) :
    ∃ shown, Settled c shown s.blanks (s.reconcile c.listing).1 ∧
      (s.reconcile c.listing).2.skipped = (s.reconcile c.listing).1.unresolved
        (s.reconcile c.listing).1.ownerOf? (Listing.firstWires [] c.listing.wires) := by
  have stays := wf.reconcile (c := c) nodup
  obtain ⟨shown, t, report, course⟩ := wf.course (c := c) nodup
  obtain ⟨redrawn, wiring⟩ := course.redrawn
  have boxes := course.boxes_eq
  have layers := course.layers_eq
  have hskip := skipped_foldl c.listing t.ownerOf? t.sortBoxes.dropOrphans report
    (Listing.firstWires [] c.listing.wires)
  have hrec := course.reconcile
  rw [showWires] at hrec
  rw [← hrec] at hskip
  generalize s.reconcile c.listing = result at *
  obtain ⟨u, report'⟩ := result
  have howner : t.ownerOf? = u.ownerOf? :=
    course.staged.owns.unique (boxes_congr (t := u) (s := t.sortBoxes) wiring.boxes ▸ stays.owns)
  have anchors := anchor?_congr redrawn.same.1
  have resolves (ends : Ends) : u.resolveEnds? u.ownerOf? ends
      = t.sortBoxes.dropOrphans.resolveEnds? u.ownerOf? ends := resolveEnds?_congr redrawn.same.1 ends
  refine ⟨shown, ⟨stays, boxes, course.rows, ?_, ?_, ?_, ?_⟩, ?_⟩
  · intro e he
    simpa using (List.mem_filter.1 he).2
  · refine ⟨_, layers, ?_⟩
    intro y hy
    simpa using (List.mem_filter.1 hy).2
  · intro x hx
    exact ⟨wiring.listed x hx, wiring.wired x hx⟩
  · intro e he outlet inlet ends
    rw [resolves, ← howner] at ends
    obtain ⟨start, stop, ho, hi, x, hx, draft⟩ := redrawn.drawn e he outlet inlet ends
    obtain ⟨hhandle, rfl, rfl⟩ := draft.ends
    refine ⟨x, hx, hhandle, rfl, rfl, start, stop, ?_, draft.refreshCable_eq⟩
    exact ends?_of_anchors ((anchors _).trans ho) ((anchors _).trans hi)
  · rw [hskip, course.skipped, Nat.zero_add, unresolved, unresolved, ← howner]
    refine List.countP_congr fun e _ => ?_
    rw [howner, resolves]

/-! ## Reconciling a settled scene -/

theorem insertByPlace_of_first {ks : List Nat}
    (first : ∀ j ∈ ks, comesBefore (s.place? k) (s.place? j) = true) :
    s.insertByPlace k ks = k :: ks := by
  cases ks with
  | nil => rfl
  | cons j rest => rw [insertByPlace, if_pos (first j List.mem_cons_self)]

theorem foldr_insertByPlace_of_sorted {ks : List Nat}
    (sorted : ks.Pairwise fun j k => comesBefore (s.place? j) (s.place? k) = true) :
    ks.foldr s.insertByPlace [] = ks := by
  induction ks with
  | nil => rfl
  | cons k ks ih =>
    obtain ⟨first, sorted⟩ := List.pairwise_cons.1 sorted
    rw [List.foldr_cons, ih sorted, insertByPlace_of_first first]

theorem sortBoxes_of_sorted (exact : s.boxArena.Exact)
    (sorted : s.boxes.Pairwise fun x y => standsBefore x.2 y.2 = true) : s.sortBoxes = s := by
  have place {e : Nat × Box} (mem : e ∈ s.boxes) : s.place? e.1 = e.2.index := by
    rw [place?, box?_of_mem mem, Option.bind_some]
  have ordered : s.boxArena.order.Pairwise fun j k =>
      comesBefore (s.place? j) (s.place? k) = true := by
    rw [← exact.keys_eq, keys, List.pairwise_map]
    refine List.Pairwise.imp_of_mem (fun hx hy before => ?_) sorted
    rw [place hx, place hy]
    exact before
  rw [sortBoxes, foldr_insertByPlace_of_sorted ordered]

theorem retainCables_of_all {keep : Cable → Bool} (all : ∀ x ∈ s.cables, keep x.2 = true) :
    s.retainCables keep = (s, 0) := by
  have none : s.cables.filter (fun e => !keep e.2) = [] :=
    List.filter_eq_nil_iff.2 fun x hx => by simp [all x hx]
  rw [retainCables, none]
  rfl

theorem purgeCables_of_all {keep : Scene → Cable → Bool} {report : SyncReport}
    (all : ∀ x ∈ s.cables, keep s x.2 = true) : purgeCables keep (s, report) = (s, report) := by
  rw [purgeCables, retainCables_of_all all]
  rfl

namespace Settled

theorem mem_shown (settled : Settled c shown blanks s) (there : shown[j]? = some e) :
    e ∈ s.boxes := by
  rw [settled.boxes]
  exact List.mem_append_left _ (List.mem_of_getElem? there)

theorem nodup_shown (settled : Settled c shown blanks s) : (keys shown).Nodup := by
  have nodup := settled.wf.boxes
  rw [settled.boxes, Keyed.keys_append] at nodup
  exact (List.nodup_append.1 nodup).1

theorem known (settled : Settled c shown blanks s) (mem : e ∈ s.boxes) (named : e.2.handle = some h) :
    h ∈ keys c.nodes := by
  rw [settled.boxes] at mem
  rcases List.mem_append.1 mem with mem | mem
  · obtain ⟨j, hj⟩ := List.mem_iff_getElem?.1 mem
    obtain ⟨g, n, hg, named', -⟩ := settled.rows.2 j e hj
    obtain rfl : g = h := Option.some.inj (named'.symm.trans named)
    exact Keyed.mem_keys_of_mem (List.mem_of_getElem? hg)
  · exact absurd ((settled.blanks e mem).symm.trans named) (by simp)

theorem isLive (settled : Settled c shown blanks s) (mem : e ∈ s.boxes) :
    Scene.isLive c.listing e.2 = true := by
  cases hh : e.2.handle with
  | none => simp [Scene.isLive, (settled.wf.editing e mem).2 hh]
  | some h =>
    have listed : c.listing.hasNode h = true := hasNode_listing.2 (settled.known mem hh)
    simp [Scene.isLive, hh, listed]

theorem purge_eq (settled : Settled c shown blanks s) (report : SyncReport) :
    purge c.listing (s, report) = (s, report) := by
  have listed (r : SyncReport) : purgeCables (fun _ d => c.listing.hasWire d.handle) (s, r) = (s, r) :=
    purgeCables_of_all fun x hx => (settled.cables x hx).1
  have wired (r : SyncReport) : purgeCables isWired (s, r) = (s, r) :=
    purgeCables_of_all fun x hx => (settled.cables x hx).2
  have live : s.boxes.filter (fun e => !Scene.isLive c.listing e.2) = [] :=
    List.filter_eq_nil_iff.2 fun e he => by simp [settled.isLive he]
  rw [purge, listed, purgeBoxes, live]
  exact wired report

theorem showNode_eq (settled : Settled c shown blanks s) (nodup : (keys c.nodes).Nodup)
    (there : shown[j]? = some e) (node : c.nodes[j]? = some (h, n)) (layers : List Layer)
    (report : SyncReport) :
    showNode c.listing ({ s with layers := layers }, report) ⟨h, j⟩
      = ({ s with layers := layers.filter (fun y => y.key != e.1) ++ layersOf e.1 e.2 },
        report) := by
  obtain ⟨k, b⟩ := e
  have mem := settled.mem_shown there
  obtain ⟨g, m, hg, named, steady⟩ := settled.rows.2 j (k, b) there
  obtain ⟨rfl, rfl⟩ := Prod.mk.inj (Option.some.inj (node.symm.trans hg))
  have howner : s.ownerOf? h = some k := (settled.wf.owns h k).2 ⟨b, mem, named⟩
  have hbox : s.box? k = some b := box?_of_mem mem
  have info : c.listing.info h = some n.info := by
    have hnode : c.node? h = some n := Keyed.get?_of_mem nodup (List.mem_of_getElem? node)
    simp only [Contents.listing, hnode, Option.map_some]
  have hupdate : ({ s with layers := layers } : Scene).updateBox k
      (fun b => { b.refresh n.info with index := some j }) = { s with layers := layers } := by
    refine congrArg (fun bs => ({ s with boxArena := bs, layers := layers } : Scene)) ?_
    exact Arena.update_of_get? hbox steady.renew_eq
  have howner' : ({ s with layers := layers } : Scene).ownerOf? h = some k := howner
  have hbox' : ({ s with layers := layers } : Scene).box? k = some b := hbox
  simp only [showNode, info, howner', hbox', hupdate, Option.any_some, steady.isStale_eq_false,
    Bool.false_eq_true, if_false, raise]

theorem foldl_showNode (settled : Settled c shown blanks s) (nodup : (keys c.nodes).Nodup)
    {rest : Keyed Node} (left : c.nodes.drop j = rest) (layers : List Layer)
    (report : SyncReport) :
    (entriesFrom j rest).foldl (showNode c.listing) ({ s with layers := layers }, report)
      = ({ s with layers :=
          layers.filter (fun y => !(keys (shown.drop j)).contains y.key)
            ++ (shown.drop j).flatMap fun e => layersOf e.1 e.2 }, report) := by
  induction rest generalizing j layers with
  | nil =>
    have none : shown.drop j = [] := by
      rw [List.drop_eq_nil_iff, settled.rows.1, ← List.drop_eq_nil_iff, left]
    simp [none, entriesFrom, keys]
  | cons x rest ih =>
    obtain ⟨h, n⟩ := x
    have node : c.nodes[j]? = some (h, n) := by
      rw [← List.head?_drop, left, List.head?_cons]
    have left' : c.nodes.drop (j + 1) = rest := by
      rw [← List.tail_drop, left, List.tail_cons]
    have hlt : j < shown.length := settled.rows.1 ▸ (List.getElem?_eq_some_iff.1 node).1
    have there : shown[j]? = some shown[j] := List.getElem?_eq_getElem hlt
    have hdrop : shown.drop j = shown[j] :: shown.drop (j + 1) := List.drop_eq_getElem_cons hlt
    have apart : shown[j].1 ∉ keys (shown.drop (j + 1)) := by
      have distinct : (keys (shown.drop j)).Nodup :=
        settled.nodup_shown.sublist ((List.drop_sublist j shown).map _)
      rw [hdrop] at distinct
      exact (List.nodup_cons.1 distinct).1
    have hentries : entriesFrom j ((h, n) :: rest) = ⟨h, j⟩ :: entriesFrom (j + 1) rest := rfl
    have top : (layersOf shown[j].1 shown[j].2).filter
        (fun y => !(keys (shown.drop (j + 1))).contains y.key) = layersOf shown[j].1 shown[j].2 :=
      List.filter_eq_self.2 fun y hy => by simpa [mem_layersOf hy] using apart
    rw [hentries, List.foldl_cons, settled.showNode_eq nodup there node, ih left', hdrop,
      List.filter_append, top, List.filter_filter, List.flatMap_cons, List.append_assoc]
    congr 4
    funext y
    generalize shown.drop (j + 1) = later
    rw [Bool.eq_iff_iff]
    simp [keys, and_comm]

theorem showNodes_eq (settled : Settled c shown blanks s) (nodup : (keys c.nodes).Nodup)
    (report : SyncReport) : showNodes c.listing (s, report) = (s, report) := by
  obtain ⟨below, hlayers, hbelow⟩ := settled.layers
  have again := settled.foldl_showNode nodup List.drop_zero s.layers report
  have below : s.layers.filter (fun y => !(keys shown).contains y.key) = below :=
    hlayers ▸ filter_layers_of_below hbelow
  rw [showNodes, firstNodes_listing nodup]
  refine again.trans ?_
  rw [List.drop_zero, below, ← hlayers]

theorem sorted (settled : Settled c shown blanks s) :
    s.boxes.Pairwise fun x y => standsBefore x.2 y.2 = true := by
  have unplaced : ∀ e ∈ blanks, e.2.index = none := by
    intro e he
    refine settled.wf.unplaced e ?_ (settled.blanks e he)
    rw [settled.boxes]
    exact List.mem_append_right _ he
  have last {a b : Box} (hb : b.index = none) : standsBefore a b = true := by
    cases ha : a.index <;> simp [standsBefore, comesBefore, ha, hb]
  rw [settled.boxes, List.pairwise_append]
  refine ⟨?_, ?_, ?_⟩
  · refine List.pairwise_iff_getElem.2 fun i j hi hj hij => ?_
    obtain ⟨_, _, -, -, steadyi⟩ := settled.rows.2 i _ (List.getElem?_eq_getElem hi)
    obtain ⟨_, _, -, -, steadyj⟩ := settled.rows.2 j _ (List.getElem?_eq_getElem hj)
    simp only [standsBefore, comesBefore, steadyi.index, steadyj.index, decide_eq_true_iff]
    omega
  · exact List.pairwise_iff_getElem.2 fun i j _ hj _ => last (unplaced _ (List.getElem_mem hj))
  · intro e _ f hf
    exact last (unplaced f hf)

theorem showWire_eq (settled : Settled c shown blanks s) {e : WireEntry}
    (mem : e ∈ Listing.firstWires [] c.listing.wires) (report : SyncReport) :
    showWire c.listing s.ownerOf? (s, report) e = (s, { report with
      skipped := report.skipped + if (s.resolveEnds? s.ownerOf? e.ends).isNone then 1 else 0 }) := by
  cases hends : s.resolveEnds? s.ownerOf? e.ends with
  | none => simp [showWire, hends]
  | some ends =>
    obtain ⟨outlet, inlet⟩ := ends
    obtain ⟨⟨k, d⟩, hd, hhandle, houtlet, hinlet, start, stop, anchors, fresh⟩ :=
      settled.drawn e mem outlet inlet hends
    have hcable : s.cable? k = some d := cable?_of_mem hd
    have hkey : s.cableOf? e.handle = some k := by
      cases hfound : s.cableOf? e.handle with
      | none => exact absurd hhandle (cableOf?_eq_none.1 hfound _ hd)
      | some k' =>
        obtain ⟨d', hd', hhandle'⟩ := mem_of_cableOf? hfound
        have same := List.inj_on_of_nodup_map settled.wf.cableHandles hd hd'
          (hhandle.trans hhandle'.symm)
        rw [(Prod.mk.inj same).1]
    have hkept : s.updateCable k (fun _ => d) = s := by
      rw [updateCable, Arena.update_of_get? hcable rfl]
    simp only at houtlet hinlet anchors fresh
    simp [showWire, hends, hkey, hcable, houtlet, hinlet, anchors, fresh, hkept]

theorem foldl_showWire (settled : Settled c shown blanks s) {es : List WireEntry}
    (mem : ∀ e ∈ es, e ∈ Listing.firstWires [] c.listing.wires) (report : SyncReport) :
    es.foldl (showWire c.listing s.ownerOf?) (s, report)
      = (s, { report with skipped := report.skipped + s.unresolved s.ownerOf? es }) := by
  induction es generalizing report with
  | nil => rfl
  | cons e es ih =>
    obtain ⟨he, hes⟩ := List.forall_mem_cons.1 mem
    rw [List.foldl_cons, settled.showWire_eq he, ih hes, unresolved, unresolved, List.countP_cons,
      Nat.add_assoc, Nat.add_comm (List.countP _ es)]

theorem reconcile_eq (settled : Settled c shown blanks s) (nodup : (keys c.nodes).Nodup) :
    s.reconcile c.listing = (s,
      { skipped := s.unresolved s.ownerOf? (Listing.firstWires [] c.listing.wires) }) := by
  have hsort := sortBoxes_of_sorted settled.wf.boxOrder settled.sorted
  have hdrop : purgeCables isWired (s, ({} : SyncReport)) = (s, {}) :=
    purgeCables_of_all fun x hx => (settled.cables x hx).2
  simp only [reconcile, settled.purge_eq, settled.showNodes_eq nodup, hsort, hdrop, showWires]
  rw [settled.foldl_showWire fun e he => he]
  simp

end Settled

end Patchbay.Scene
