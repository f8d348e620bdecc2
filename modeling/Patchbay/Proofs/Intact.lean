import Patchbay.Proofs.Joined
import Patchbay.Proofs.Numbered

/-!
# Scenes without loose ends

On a canvas that stays with one patch, everything is there once and in its place after every call:
each box is stacked once, with its label on top of it, and each cable goes from an outlet to an inlet
that are in the scene. A box that is being typed has no jacks, so taking it away leaves no cable
behind.
-/

namespace Patchbay

open Keyed (keys)

namespace Scene

def layersAt (s : Scene) (k : Nat) : List Layer :=
  match s.box? k with
  | some b => layersOf k b
  | none => []

/-- Each box is stacked once, with all its layers together. -/
def Stacked (s : Scene) : Prop :=
  ∃ ks : List Nat, ks.Perm (keys s.boxes) ∧ s.layers = ks.flatMap s.layersAt

/-- Everything in its place: what is asked of a scene beyond its being well-formed. -/
structure Tidy (s : Scene) : Prop where
  stacked : s.Stacked
  sides : ∀ x ∈ s.cables, x.2.outlet.side = .outlet ∧ x.2.inlet.side = .inlet
  wired : ∀ x ∈ s.cables, s.isWired x.2 = true
  bare : ∀ e ∈ s.boxes, e.2.handle = none → ∀ side, e.2.jacks side = []

variable {s t : Scene} {l : Listing} {k : Nat} {b : Box} {c : Cable} {ref : JackRef}

theorem layersAt_of_outline (same : t.outline = s.outline) (k : Nat) :
    t.layersAt k = s.layersAt k := by
  have tags : (t.box? k).map Box.tag = (s.box? k).map Box.tag := by rw [tag_box?, same, ← tag_box?]
  unfold layersAt
  cases ht : t.box? k with
  | none =>
    rw [ht] at tags
    rw [Option.map_eq_none_iff.1 tags.symm]
  | some b =>
    rw [ht] at tags
    obtain ⟨b', hb', tag⟩ := Option.map_eq_some_iff.1 tags.symm
    rw [hb']
    have widget : b'.widget = b.widget := congrArg Box.Tag.widget tag
    simp only [layersOf, widget]

theorem forall_cables {P : Nat × JackRef × JackRef → Prop} :
    (∀ x ∈ s.cables, P (x.2.handle, x.2.outlet, x.2.inlet))
      ↔ ∀ x ∈ s.outline.cables.entries, P x.2 := by
  rw [cables_outline, List.forall_mem_map]
  rfl

theorem Tidy.of_outline (tidy : s.Tidy) (same : t.outline = s.outline) : t.Tidy where
  stacked := by
    obtain ⟨ks, perm, layers⟩ := tidy.stacked
    have held : t.layers = s.layers := congrArg Outline.layers same
    refine ⟨ks, ?_, ?_⟩
    · rw [keys_boxes, same, ← keys_boxes]
      exact perm
    · rw [held, layers]
      exact List.flatMap_congr fun k _ => (layersAt_of_outline same k).symm
  sides := by
    rw [forall_cables (P := fun p => p.2.1.side = .outlet ∧ p.2.2.side = .inlet), same]
    exact (forall_cables (P := fun p => p.2.1.side = .outlet ∧ p.2.2.side = .inlet)).1 tidy.sides
  wired := by
    have jacks (u : Scene) (ends : ∀ ref, (u.jack? ref).isSome = (s.jack? ref).isSome) :
        (∀ x ∈ u.cables, u.isWired x.2 = true) ↔ ∀ x ∈ u.outline.cables.entries,
          ((s.jack? x.2.2.1).isSome && (s.jack? x.2.2.2).isSome) = true := by
      rw [← forall_cables
        (P := fun p => ((s.jack? p.2.1).isSome && (s.jack? p.2.2).isSome) = true)]
      simp only [isWired, ends]
    rw [jacks t (isSome_jack?_of_outline same), same]
    exact (jacks s fun _ => rfl).1 tidy.wired
  bare := by
    let P (g : Box.Tag) : Prop := g.handle = none → ∀ side, g.jacks side = 0
    have empty (b : Box) : P b.tag ↔ (b.handle = none → ∀ side, b.jacks side = []) := by
      simp only [P, Box.jacks_tag, List.length_eq_zero_iff]
      rfl
    have tags := boxes_of_outline (P := P) same fun e he => (empty e.2).2 (tidy.bare e he)
    exact fun e he => (empty e.2).1 (tags e he)

/-! ## The stack -/

theorem mem_layersAt {y : Layer} (mem : y ∈ s.layersAt k) : y.key = k := by
  unfold layersAt at mem
  split at mem
  · exact mem_layersOf mem
  · exact absurd mem List.not_mem_nil

theorem layersAt_eq (found : s.box? k = some b) : s.layersAt k = layersOf k b := by
  simp only [layersAt, found]

theorem layersAt_congr (same : t.box? k = s.box? k) : t.layersAt k = s.layersAt k := by
  simp only [layersAt, same]

theorem filter_flatMap_layersAt (keep : Nat → Bool) (ks : List Nat) :
    (ks.flatMap s.layersAt).filter (fun y => keep y.key) = (ks.filter keep).flatMap s.layersAt := by
  induction ks with
  | nil => rfl
  | cons k ks ih =>
    rw [List.flatMap_cons, List.filter_append, ih]
    cases hk : keep k with
    | true =>
      have all : (s.layersAt k).filter (fun y => keep y.key) = s.layersAt k :=
        List.filter_eq_self.2 fun y hy => by rw [mem_layersAt hy, hk]
      rw [all, List.filter_cons_of_pos hk, List.flatMap_cons]
    | false =>
      have none : (s.layersAt k).filter (fun y => keep y.key) = [] :=
        List.filter_eq_nil_iff.2 fun y hy => by simp [mem_layersAt hy, hk]
      rw [none, List.filter_cons_of_neg (by simp [hk]), List.nil_append]

theorem Stacked.congr (stacked : s.Stacked) (boxes : t.boxArena = s.boxArena)
    (layers : t.layers = s.layers) : t.Stacked := by
  obtain ⟨ks, perm, same⟩ := stacked
  refine ⟨ks, boxes_congr boxes ▸ perm, (layers.trans same).trans (List.flatMap_congr fun k _ => ?_)⟩
  exact (layersAt_congr (box?_congr boxes k)).symm

theorem Stacked.removeBox (stacked : s.Stacked) (k : Nat) : (s.removeBox k).Stacked := by
  cases found : s.box? k with
  | none =>
    have same : s.removeBox k = s := by simp only [Scene.removeBox, found]
    rw [same]
    exact stacked
  | some b =>
    have left : (s.removeBox k).layers = s.layers.filter fun y => y.key != k := by
      simp only [Scene.removeBox, found]
    obtain ⟨ks, perm, layers⟩ := stacked
    have fewer : keys (s.removeBox k).boxes = (keys s.boxes).filter (· != k) := by
      rw [boxes_removeBox]
      exact (List.filter_map (f := Prod.fst) (p := (· != k)) (l := s.boxes)).symm
    refine ⟨ks.filter (· != k), fewer ▸ perm.filter _, ?_⟩
    rw [left, layers, filter_flatMap_layersAt (· != k)]
    refine List.flatMap_congr fun j hj => (layersAt_congr ?_).symm
    have other : j ≠ k := by simpa using (List.mem_filter.1 hj).2
    rw [box?, boxArena_removeBox, Arena.get?_remove, if_neg other, box?]

theorem Stacked.foldl_removeBox (stacked : s.Stacked) (ks : List Nat) :
    (ks.foldl Scene.removeBox s).Stacked := by
  refine List.foldlRecOn (motive := Stacked) _ _ stacked ?_
  exact fun t ht k _ => ht.removeBox k

theorem Stacked.addBox (stacked : s.Stacked) (exact : s.boxArena.Exact) (b : Box) :
    (s.addBox b).2.Stacked := by
  obtain ⟨ks, perm, layers⟩ := stacked
  have added : keys (s.addBox b).2.boxes = keys s.boxes ++ [s.nextBox] := by
    rw [boxes_addBox exact, Keyed.keys_append]
    rfl
  refine ⟨ks ++ [s.nextBox], added ▸ perm.append_right _, ?_⟩
  have top : (s.addBox b).2.box? s.nextBox = some b := by rw [box?_addBox, if_pos rfl]
  change s.layers ++ layersOf s.nextBox b = _
  rw [List.flatMap_append, List.flatMap_singleton, layersAt_eq top, layers]
  congr 1
  refine List.flatMap_congr fun k hk => (layersAt_congr ?_).symm
  have old : k ≠ s.nextBox := Nat.ne_of_lt (lt_nextBox (perm.mem_iff.1 hk))
  rw [box?_addBox, if_neg old]

theorem Stacked.raise (stacked : s.Stacked) (exact : t.boxArena.Exact)
    (boxes : keys t.boxes = keys s.boxes) (others : ∀ j, j ≠ k → t.box? j = s.box? j)
    (layers : t.layers = s.layers) : (t.raise k).Stacked := by
  obtain ⟨ks, perm, same⟩ := stacked
  rw [← boxes] at perm
  cases found : t.box? k with
  | none =>
    have kept : t.raise k = t := by simp only [Scene.raise, found]
    rw [kept]
    refine ⟨ks, perm, (layers.trans same).trans (List.flatMap_congr fun j hj => ?_)⟩
    refine (layersAt_congr (others j ?_)).symm
    rintro rfl
    have there := isSome_box? (perm.mem_iff.1 hj)
    simp [found] at there
  | some b =>
    have here : k ∈ ks := perm.mem_iff.2 (Keyed.mem_keys_of_mem (mem_boxes exact found))
    have distinct : ks.Nodup := perm.nodup_iff.2 exact.nodup_keys
    have again : (ks.filter (· != k) ++ [k]).Perm ks := by
      refine (List.perm_ext_iff_of_nodup ?_ distinct).2 fun j => ?_
      · exact (distinct.filter _).append (List.nodup_singleton k) (by simp)
      · by_cases hj : j = k
        · simp [hj, here]
        · simp [hj]
    have raised (j : Nat) : (t.raise k).box? j = t.box? j := box?_congr (boxArena_raise t k) j
    refine ⟨ks.filter (· != k) ++ [k], ?_, ?_⟩
    · rw [boxes_raise]
      exact again.trans perm
    · rw [layers_raise found, layers, same, filter_flatMap_layersAt (· != k), List.flatMap_append,
        List.flatMap_singleton, layersAt_eq ((raised k).trans found)]
      congr 1
      refine List.flatMap_congr fun j hj => (layersAt_congr ((raised j).trans (others j ?_))).symm
      simpa using (List.mem_filter.1 hj).2

theorem Stacked.showNode (stacked : s.Stacked) (regular : s.Regular) (report : SyncReport)
    (e : NodeEntry) : (showNode l (s, report) e).1.Stacked := by
  simp only [Scene.showNode]
  split
  · exact stacked
  · next info _ =>
    split
    · next k _ =>
      exact stacked.raise (regular.boxOrder.update k _) (keys_updateBox ..)
        (fun j other => box?_updateBox_ne other _) rfl
    · exact (stacked.addBox regular.boxOrder _).raise (regular.boxOrder.insert _) rfl
        (fun _ _ => rfl) rfl

theorem Stacked.sortBoxes (stacked : s.Stacked) : s.sortBoxes.Stacked := by
  obtain ⟨ks, perm, layers⟩ := stacked
  refine ⟨ks, perm.trans ((perm_sortBoxes s).map _).symm, ?_⟩
  exact layers.trans (List.flatMap_congr fun k _ => (layersAt_congr (box?_sortBoxes s k)).symm)

theorem isSome_jack?_iff : (s.jack? ref).isSome = true ↔
    ∃ b, s.box? ref.box = some b ∧ ref.index < (b.jacks ref.side).length := by
  rw [jack?]
  cases s.box? ref.box with
  | none => simp
  | some b => simp [Box.isSome_jack?_iff]

theorem isSome_jack?_mono (there : (s.jack? ref).isSome = true)
    (box : ∀ b, s.box? ref.box = some b → ref.index < (b.jacks ref.side).length →
      ∃ b', t.box? ref.box = some b' ∧ (b'.jacks ref.side).length = (b.jacks ref.side).length) :
    (t.jack? ref).isSome = true := by
  obtain ⟨b, found, hlt⟩ := isSome_jack?_iff.1 there
  obtain ⟨b', found', same⟩ := box b found hlt
  exact isSome_jack?_iff.2 ⟨b', found', same ▸ hlt⟩

theorem isWired_mono (jacks : ∀ ref, (s.jack? ref).isSome = true → (t.jack? ref).isSome = true)
    (wired : s.isWired c = true) : t.isWired c = true := by
  simp only [isWired, Bool.and_eq_true] at wired ⊢
  exact ⟨jacks _ wired.1, jacks _ wired.2⟩

theorem tidy_empty : Tidy {} := by
  have boxes : ({} : Scene).boxes = [] := by decide +kernel
  have cables : ({} : Scene).cables = [] := by decide +kernel
  refine ⟨⟨[], boxes ▸ .nil, rfl⟩, ?_, ?_, ?_⟩ <;> simp [boxes, cables]

theorem Tidy.addBlank (tidy : s.Tidy) (regular : s.Regular) (position : Point) :
    (s.addBox (Box.blank position)).2.Tidy := by
  have boxes := boxes_addBox regular.boxOrder (Box.blank position)
  refine ⟨tidy.stacked.addBox regular.boxOrder _, tidy.sides, fun x hx => ?_,
    fun e he => ?_⟩
  · refine isWired_mono (fun ref there => ?_) (tidy.wired x hx)
    refine isSome_jack?_mono there fun b found _ => ⟨b, ?_, rfl⟩
    have old : ref.box ≠ s.nextBox := Nat.ne_of_lt (Arena.lt_next found)
    rw [box?_addBox, if_neg old, found]
  · rw [boxes] at he
    rcases List.mem_append.1 he with there | last
    · exact tidy.bare e there
    · rw [List.mem_singleton.1 last]
      exact fun _ side => by cases side <;> rfl

theorem Tidy.foldl_removeBox (tidy : s.Tidy) (regular : s.Regular) {ks : List Nat}
    (blank : ∀ k ∈ ks, ∀ b, s.box? k = some b → b.handle = none) :
    (ks.foldl removeBox s).Tidy := by
  have cables := cables_congr (cableArena_foldl_removeBox ks s)
  have boxes := boxes_foldl_removeBox ks s
  have old : ∀ e ∈ (ks.foldl removeBox s).boxes, e ∈ s.boxes := by
    intro e he
    rw [boxes] at he
    exact (List.mem_filter.1 he).1
  refine ⟨tidy.stacked.foldl_removeBox ks, cables ▸ tidy.sides, ?_,
    fun e he => tidy.bare e (old e he)⟩
  intro x hx
  refine isWired_mono (fun ref there => ?_) (tidy.wired x (cables ▸ hx))
  refine isSome_jack?_mono there fun b found hlt => ⟨b, box?_of_mem ?_, rfl⟩
  have mem := mem_boxes regular.boxOrder found
  have stays : ref.box ∉ ks := by
    intro gone
    have none : b.jacks ref.side = [] := tidy.bare _ mem (blank _ gone b found) ref.side
    simp [none] at hlt
  rw [boxes]
  exact List.mem_filter.2 ⟨mem, by simpa using stays⟩

theorem Tidy.updateBox (tidy : s.Tidy) {f : Box → Box} (widget : ∀ b, (f b).widget = b.widget)
    (jacks : ∀ b side, (f b).jacks side = b.jacks side) (named : ∀ b, (f b).handle ≠ none) :
    (s.updateBox k f).Tidy := by
  have found (j : Nat) : (s.updateBox k f).box? j
      = (s.box? j).map fun b => if j = k then f b else b := by
    by_cases hj : j = k
    · subst hj
      simp only [if_true]
      exact box?_updateBox_self ..
    · simp only [hj, if_false, Option.map_id']
      exact box?_updateBox_ne hj f
  obtain ⟨ks, perm, layers⟩ := tidy.stacked
  refine ⟨⟨ks, (keys_updateBox s k f).symm ▸ perm, ?_⟩, tidy.sides, ?_, ?_⟩
  · refine layers.trans (List.flatMap_congr fun j _ => ?_)
    rw [layersAt, layersAt, found]
    cases s.box? j with
    | none => rfl
    | some b =>
      simp only [Option.map_some, layersOf]
      split <;> split <;> simp_all
  · intro x hx
    refine isWired_mono (fun ref there => ?_) (tidy.wired x hx)
    refine isSome_jack?_mono there fun b hb _ => ⟨_, (found _).trans (congrArg _ hb), ?_⟩
    split
    · rw [jacks]
    · rfl
  · intro e he blank
    rw [boxes_updateBox] at he
    rcases Keyed.of_mem_update he with ⟨he, -⟩ | ⟨b, -, rfl⟩
    · exact tidy.bare e he blank
    · exact absurd blank (named b)

/-! ## Reconciling -/

theorem side_of_resolve? {owner : Nat → Option Nat} {g index : Nat} {side : Side}
    (found : s.resolve? owner g side index = some ref) : ref.side = side := by
  obtain ⟨k, -, b, -, -, rfl⟩ := resolve?_eq_some_iff.1 found
  rfl

theorem sides_showWire (sides : ∀ x ∈ s.cables, x.2.outlet.side = .outlet ∧ x.2.inlet.side = .inlet)
    (owner : Nat → Option Nat) (report : SyncReport) (e : WireEntry) :
    ∀ x ∈ (showWire l owner (s, report) e).1.cables,
      x.2.outlet.side = .outlet ∧ x.2.inlet.side = .inlet := by
  simp only [showWire]
  split
  · exact sides
  · next outlet inlet ends =>
    obtain ⟨hout, hin⟩ := resolveEnds?_eq_some_iff.1 ends
    obtain ⟨-, houtlet, hinlet⟩ :=
      newCable_ends s e.handle outlet inlet ((l.token e.handle).getD "")
    have fresh := And.intro ((congrArg JackRef.side houtlet).trans (side_of_resolve? hout))
      ((congrArg JackRef.side hinlet).trans (side_of_resolve? hin))
    split
    · intro x hx
      rcases of_mem_addCable hx with old | rfl
      · exact sides x old
      · exact fresh
    · split
      · exact sides
      · next c hc =>
        split
        · intro x hx
          rcases of_mem_replaceCable hx with old | rfl
          · exact sides x old
          · exact fresh
        · split
          · exact sides
          · next start stop _ =>
            intro x hx
            obtain ⟨-, routlet, rinlet⟩ :=
              refreshCable_ends c ((l.token e.handle).getD "") start stop
            rw [cables_updateCable] at hx
            rcases Keyed.of_mem_update hx with ⟨old, -⟩ | ⟨d, there, rfl⟩
            · exact sides x old
            · obtain rfl : c = d := Option.some.inj (hc.symm.trans (cable?_of_mem there))
              rw [routlet, rinlet]
              exact sides _ there

theorem Tidy.reconcile (tidy : s.Tidy) (wf : s.WellFormed) (l : Listing) :
    (s.reconcile l).1.Tidy := by
  obtain ⟨t, report, passes⟩ := wf.passes l
  have wiring := passes.reconciled
  have blanks := wf.blanks_reconcile l
  obtain ⟨⟨-, layers⟩, -, -⟩ := passes.wiring.redrawn passes.names (listed_firstWires l)
    (distinct_firstWires [] l.wires) report
  have pruned : (s.prune l).Stacked := by
    have kept : (s.keepCables fun c => l.hasWire c.handle).Stacked :=
      tidy.stacked.congr (boxArena_keepCables s _) (layers_keepCables s _)
    exact (kept.foldl_removeBox _).congr (boxArena_keepCables _ _) (layers_keepCables _ _)
  have shown : t.Stacked := by
    rw [passes.shown, showNodes]
    refine (List.foldlRecOn (motive := fun state : Scene × SyncReport => state.1.Regular ∧
      state.1.Stacked) _ _ ⟨(wellFormed_iff.1 (wf.prune l)).1, pruned⟩ ?_).2
    rintro ⟨u, report⟩ ⟨regular, stacked⟩ e -
    exact ⟨regular.showNode report e, stacked.showNode regular report e⟩
  refine ⟨?_, ?_, wiring.wired, ?_⟩
  · refine shown.sortBoxes.congr wiring.boxes ?_
    rw [passes.reconcile]
    exact layers.trans (layers_keepCables _ _)
  · rw [passes.reconcile, showWires]
    refine List.foldlRecOn (motive := fun state : Scene × SyncReport => ∀ x ∈ state.1.cables,
      x.2.outlet.side = .outlet ∧ x.2.inlet.side = .inlet) _ _ ?_ ?_
    · intro x hx
      rw [dropOrphans, cables_keepCables, cables_congr (t := t.sortBoxes) passes.cables] at hx
      have hx : x ∈ (s.prune l).cables := (List.mem_filter.1 hx).1
      rw [cables_prune_eq] at hx
      exact tidy.sides x (List.mem_filter.1 hx).1
    · rintro ⟨u, report⟩ sides e -
      exact sides_showWire sides _ report e
  · intro e he blank
    have mem : e ∈ (s.reconcile l).1.blanks := List.mem_filter.2 ⟨he, by simp [blank]⟩
    rw [blanks] at mem
    exact tidy.bare e (List.mem_filter.1 mem).1 blank

end Scene

namespace Canvas

open Scene (Tidy)

theorem Outcome.tidy {δ : Type} [Document δ] {d e : δ} {s t : Scene} (outcome : Outcome s d t e)
    (wf : s.WellFormed) (tidy : s.Tidy) : t.Tidy := by
  have regular := (Scene.wellFormed_iff.1 wf).1
  cases outcome with
  | same outline => exact tidy.of_outline outline
  | reconciled outline => exact (tidy.reconcile wf _).of_outline outline
  | placed position outline => exact (tidy.addBlank regular position).of_outline outline
  | dropped keys blank outline => exact (tidy.foldl_removeBox regular blank).of_outline outline
  | committed key handle text position made blank created closed outline =>
    refine (tidy.updateBox ?_ ?_ ?_).of_outline outline
    · exact fun _ => rfl
    · exact fun _ side => by cases side <;> rfl
    · exact fun _ => by simp

end Canvas

namespace Scene

/-- Everything is there once, numbered, stacked and wired. -/
structure Intact (s : Scene) : Prop where
  boxes : s.boxArena.Exact
  cables : s.cableArena.Exact
  stacked : s.Stacked
  numbered : ∀ e ∈ s.boxes, e.2.Numbered
  handles : s.handles.Nodup
  cableHandles : (s.cables.map (·.2.handle)).Nodup
  wired : ∀ x ∈ s.cables, x.2.outlet.side = .outlet ∧ x.2.inlet.side = .inlet ∧
    (s.jack? x.2.outlet).isSome = true ∧ (s.jack? x.2.inlet).isSome = true

end Scene

namespace Canvas

theorem tidy_play (settings : CanvasSettings) {p : Patch} (loaded : p.Loaded)
    (events : List Event) : (play settings p events).1.scene.Tidy := by
  have start : Joined (ofSettings settings) p := joined_play settings loaded []
  refine (List.foldlRecOn (motive := fun state : Canvas × Patch =>
    Joined state.1 state.2 ∧ state.1.scene.Tidy) _ _ ⟨start, Scene.tidy_empty⟩ ?_).2
  rintro ⟨c, q⟩ ⟨joined, tidy⟩ (made | m) -
  · exact ⟨joined.call made, (made.outcome c q).tidy joined.wf tidy⟩
  · exact ⟨joined.mutate m, tidy⟩

/-- Whatever is done with a canvas and its patch, no cable and no layer is left without its box. -/
theorem play_intact (settings : CanvasSettings) (p : Patch) (loaded : p.Loaded)
    (events : List Event) : (play settings p events).1.scene.Intact := by
  have joined := joined_play settings loaded events
  have tidy := tidy_play settings loaded events
  have numbered := (reached_play settings p events).numbered
  refine ⟨joined.wf.boxOrder, joined.wf.cableOrder, tidy.stacked, numbered, joined.wf.handles,
    joined.wf.cableHandles, fun x hx => ?_⟩
  obtain ⟨outlet, inlet⟩ := tidy.sides x hx
  have wired := tidy.wired x hx
  simp only [Scene.isWired, Bool.and_eq_true] at wired
  exact ⟨outlet, inlet, wired⟩

/-- A box is placed while a wire loses its inlet, and committed before the canvas hears of it. -/
theorem play_intact_typed : Patch.Loaded {} ∧ (play {} {}
    [.mutate (.insertNode ⟨"osc~", ⟨0, 0, 40, 20⟩, [], [true]⟩),
      .mutate (.insertNode ⟨"dac~", ⟨0, 100, 40, 20⟩, [true], []⟩),
      .mutate (.insertWire ⟨1, 0, 2, 0⟩), .call .sync, .call (.placeBlank ⟨5, 5⟩),
      .mutate (.setJacks 2 [] []), .call (.commitBlank 3 "print"), .call .sync]).1.scene.Intact :=
  ⟨.empty, play_intact {} {} .empty _⟩

end Canvas

end Patchbay
