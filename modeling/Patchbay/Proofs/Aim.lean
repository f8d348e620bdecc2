import Patchbay.Proofs.Given
import Patchbay.Proofs.Identity
import Patchbay.Proofs.Numbered
import Patchbay.Proofs.Ongoing
import Patchbay.Proofs.Stature

/-!
# The jack that is lit

Jacks are lit and put out in one place, where one is aimed at or none. All else that happens to boxes
carries their lights along or drops them with their jacks. So a jack that is lit is the one that the
canvas names as its target, and no two are lit at once.
-/

namespace Patchbay

namespace Jack

theorem lit_fit {side : Side} {ps : List Jack} {fs : List Bool} {i : Nat} {q : Jack}
    (new : (fit side ps fs)[i]? = some q) (lit : q.targeted = true) :
    ∃ p, ps[i]? = some p ∧ p.targeted = true := by
  rw [getElem?_fit] at new
  obtain ⟨f, -, rfl⟩ := Option.map_eq_some_iff.1 new
  cases was : ps[i]? with
  | none =>
    rw [was] at lit
    exact absurd lit Bool.false_ne_true
  | some p =>
    rw [was] at lit
    exact ⟨p, rfl, lit⟩

end Jack

namespace Box

variable {a b : Box} {side other : Side} {i j : Nat}

def Lit (b : Box) (side : Side) (i : Nat) : Prop :=
  ∃ q, b.jack? side i = some q ∧ q.targeted = true

/-- A box has no jack lit that another one has not. -/
def Dims (a b : Box) : Prop := ∀ side i, b.Lit side i → a.Lit side i

theorem lit_iff : b.Lit side i ↔ ∃ q, (b.jacks side)[i]? = some q ∧ q.targeted = true := by
  simp only [Lit, jack?_eq]

theorem dims_of_jacks (list : b.jackList = a.jackList) (inlets : b.inletCount = a.inletCount)
    (outlets : b.outletCount = a.outletCount) : a.Dims b := by
  intro side i lit
  rwa [lit_iff, jacks_congr list inlets outlets, ← lit_iff] at lit

theorem Dims.trans {c : Box} (first : a.Dims b) (second : b.Dims c) : a.Dims c :=
  fun side i lit => first side i (second side i lit)

theorem dims_layoutJacks (b : Box) : b.Dims b.layoutJacks := by
  intro side i lit
  obtain ⟨q, there, lit⟩ := lit_iff.1 lit
  rw [jacks_layoutJacks] at there
  obtain ⟨p, was, same⟩ := Jack.targeted_place there
  exact lit_iff.2 ⟨p, was, same ▸ lit⟩

theorem Numbered.dims_resizeGroups (numbered : b.Numbered) (ins outs : List Bool) :
    b.Dims (b.resizeGroups ins outs) := by
  intro side i lit
  obtain ⟨q, there, lit⟩ := lit_iff.1 lit
  rw [jacks_resizeGroups, ← numbered.jacks_eq] at there
  exact lit_iff.2 (Jack.lit_fit there lit)

theorem Numbered.dims_renew (numbered : b.Numbered) (info : NodeInfo) (i : Nat) :
    b.Dims (b.renew info i) := by
  have dressed : (b.dress info).Numbered := numbered
  have fitted := (dressed.dims_resizeGroups info.inlets info.outlets).trans (dims_layoutJacks _)
  exact (dims_of_jacks rfl rfl rfl : b.Dims (b.dress info)).trans
    (fitted.trans (dims_of_jacks rfl rfl rfl))

theorem not_lit_of_bare (bare : b.jackList = []) : ¬b.Lit side i := by
  rintro ⟨q, there, -⟩
  obtain ⟨j, -, at_j⟩ := Option.bind_eq_some_iff.1 there
  simp [bare] at at_j

theorem not_lit_ofInfo (h : Nat) (info : NodeInfo) (i : Nat) :
    ¬(ofInfo h info i).Lit side j := by
  intro lit
  let bare : Box :=
    { handle := some h
      widget := Widget.ofKind info.kind
      bounds := info.bounds.expanded margin
      index := some i }
  have numbered : bare.Numbered := numbered_of_bare rfl rfl rfl
  have dims := (numbered.dims_resizeGroups info.inlets info.outlets).trans (dims_layoutJacks _)
  exact not_lit_of_bare rfl (dims side j lit)

theorem lit_mapJack {f : Jack → Jack} (lit : (b.mapJack side i f).Lit other j) :
    b.Lit other j ∨ other = side ∧ j = i := by
  obtain ⟨q, there, on⟩ := lit_iff.1 lit
  rw [jacks_mapJack] at there
  split at there
  · next same =>
    subst same
    rw [List.getElem?_modify] at there
    by_cases here : i = j
    · exact .inr ⟨rfl, here.symm⟩
    · simp only [here, if_false, id_map'] at there
      exact .inl (lit_iff.2 ⟨q, there, on⟩)
  · exact .inl (lit_iff.2 ⟨q, there, on⟩)

theorem not_lit_putOut (b : Box) (side : Side) (i : Nat) :
    ¬(b.mapJack side i fun q => { q with targeted := false }).Lit side i := by
  intro lit
  obtain ⟨q, there, lit⟩ := lit_iff.1 lit
  rw [jacks_mapJack, if_pos rfl, List.getElem?_modify] at there
  simp only [if_true] at there
  obtain ⟨p, -, rfl⟩ := Option.map_eq_some_iff.1 there
  exact absurd lit Bool.false_ne_true

end Box

namespace Scene

variable {s t u : Scene} {k : Nat} {f : Nat → Box → Box} {put : Box → Box}

/-- The jack is there, and it is lit. -/
def Lit (s : Scene) (ref : JackRef) : Prop :=
  ∃ b, (ref.box, b) ∈ s.boxes ∧ b.Lit ref.side ref.index

/-- A scene in which no jack is lit that was not. -/
def Dims (s t : Scene) : Prop := ∀ ref, t.Lit ref → s.Lit ref

theorem Dims.refl (s : Scene) : s.Dims s := fun _ lit => lit

theorem Dims.trans (first : s.Dims t) (second : t.Dims u) : s.Dims u :=
  fun ref lit => first ref (second ref lit)

theorem dims_of_subset (fewer : t.boxes ⊆ s.boxes) : s.Dims t :=
  fun _ ⟨b, mem, lit⟩ => ⟨b, fewer mem, lit⟩

theorem dims_of_boxes (boxes : t.boxes = s.boxes) : s.Dims t := dims_of_subset (boxes ▸ fun _ mem => mem)

theorem dims_mapBoxes (boxes : t.boxes = Keyed.mapValues s.boxes f) (dims : ∀ k b, Box.Dims b (f k b)) :
    s.Dims t := by
  rintro ref ⟨b, mem, lit⟩
  obtain ⟨a, there, made⟩ := Keyed.mem_mapValues.1 (boxes ▸ mem)
  obtain rfl : b = f ref.box a := made
  exact ⟨a, there, dims ref.box a _ _ lit⟩

theorem dims_updateBox (dims : ∀ b, (k, b) ∈ s.boxes → Box.Dims b (put b)) :
    s.Dims (s.updateBox k put) := by
  rintro ⟨j, side, i⟩ ⟨b, mem, lit⟩
  rw [boxes_updateBox] at mem
  rcases Keyed.of_mem_update mem with ⟨old, -⟩ | ⟨a, there, made⟩
  · exact ⟨b, old, lit⟩
  · obtain ⟨rfl, rfl⟩ := Prod.mk.inj made
    exact ⟨a, there, dims a there _ _ lit⟩

theorem dims_updateBoxes (s : Scene) (ks : List Nat) (dims : ∀ b, Box.Dims b (put b)) :
    s.Dims (s.updateBoxes ks put) := by
  refine dims_mapBoxes (s.boxes_mapBoxes fun k b => if ks.contains k then put b else b) fun k b => ?_
  split
  · exact dims b
  · exact fun _ _ lit => lit

theorem lit_updateJack {ref p : JackRef} {f : Jack → Jack} (lit : (s.updateJack p f).Lit ref) :
    s.Lit ref ∨ ref = p := by
  obtain ⟨b, mem, lit⟩ := lit
  rw [updateJack, boxes_updateBox] at mem
  rcases Keyed.of_mem_update mem with ⟨there, -⟩ | ⟨a, there, made⟩
  · exact .inl ⟨b, there, lit⟩
  · obtain ⟨box, rfl⟩ := Prod.mk.inj made
    rcases Box.lit_mapJack lit with old | ⟨side, index⟩
    · exact .inl ⟨a, box ▸ there, old⟩
    · refine .inr ?_
      cases ref
      cases p
      simp_all

theorem not_lit_putOut (s : Scene) (ref : JackRef) :
    ¬(s.updateJack ref fun q => { q with targeted := false }).Lit ref := by
  rintro ⟨b, mem, lit⟩
  rw [updateJack, boxes_updateBox] at mem
  rcases Keyed.of_mem_update mem with ⟨-, other⟩ | ⟨a, -, made⟩
  · exact other rfl
  · obtain ⟨-, rfl⟩ := Prod.mk.inj made
    exact Box.not_lit_putOut a _ _ lit

theorem dims_foldl_removeBox (s : Scene) (ks : List Nat) : s.Dims (ks.foldl removeBox s) :=
  dims_of_subset (boxes_foldl_removeBox ks s ▸ List.filter_sublist.subset)

theorem dims_addBox (s : Scene) {b : Box} (dark : ∀ side i, ¬b.Lit side i) :
    s.Dims (s.addBox b).2 := by
  rintro ref ⟨a, mem, lit⟩
  rcases Arena.of_mem_entries_insert mem with old | new
  · exact ⟨a, old, lit⟩
  · obtain ⟨-, rfl⟩ := Prod.mk.inj new
    exact absurd lit (dark _ _)

theorem Numbered.dims_showNode (numbered : s.Numbered) (l : Listing) (report : SyncReport)
    (e : NodeEntry) : s.Dims (Scene.showNode l (s, report) e).1 := by
  simp only [Scene.showNode]
  split
  · exact .refl s
  · next info known =>
    split
    · exact (dims_updateBox fun b mem => (numbered _ mem).dims_renew info e.index).trans
        (dims_of_boxes (boxes_raise _ _))
    · exact (dims_addBox s fun _ _ => Box.not_lit_ofInfo e.handle info e.index).trans
        (dims_of_boxes (boxes_raise _ _))

theorem Numbered.dims_reconcile (numbered : s.Numbered) (l : Listing) :
    s.Dims (s.reconcile l).1 := by
  have shown : (Scene.showNodes l (s.prune l, {})).1.Numbered ∧
      (s.prune l).Dims (Scene.showNodes l (s.prune l, {})).1 :=
    List.foldlRecOn (motive := fun state : Scene × SyncReport =>
        state.1.Numbered ∧ (s.prune l).Dims state.1) _ _ ⟨numbered.prune l, .refl _⟩
      fun state ⟨numbered, dims⟩ e _ => ⟨numbered.showNode state.2 e,
        dims.trans (numbered.dims_showNode l state.2 e)⟩
  have pruned : s.Dims (s.prune l) :=
    dims_of_subset (boxes_prune l s ▸ List.filter_subset_self _)
  refine (pruned.trans shown.2).trans (dims_of_subset fun e mem => ?_)
  exact mem_sortBoxes.1 (boxes_congr (boxArena_reconcile s l) ▸ mem)

theorem lit_of_jack? (exact : s.boxArena.Exact) {ref : JackRef}
    (lit : (s.jack? ref).any Jack.targeted = true) : s.Lit ref := by
  obtain ⟨q, found, on⟩ := (Option.any_eq_true ..).1 lit
  obtain ⟨b, there, jack⟩ := Option.bind_eq_some_iff.1 found
  exact ⟨b, mem_boxes exact there, q, jack, on⟩

theorem exists_lit {e : Nat × Box} {q : Jack} (mem : e ∈ s.boxes) (side : Side)
    (there : q ∈ e.2.jacks side) (on : q.targeted = true) : ∃ i, s.Lit ⟨e.1, side, i⟩ := by
  obtain ⟨i, found⟩ := List.mem_iff_getElem?.1 there
  exact ⟨i, e.2, mem, Box.lit_iff.2 ⟨q, found, on⟩⟩

theorem countP_le_one {α : Type} {p : α → Bool} {as : List α}
    (apart : as.Pairwise fun a b => p a = true → p b = true → False) : as.countP p ≤ 1 := by
  induction as with
  | nil => exact Nat.zero_le 1
  | cons a as ih =>
    obtain ⟨first, rest⟩ := List.pairwise_cons.1 apart
    by_cases here : p a = true
    · have none : as.countP p = 0 := List.countP_eq_zero.2 fun b hb => first b hb here
      simp [List.countP_cons_of_pos here, none]
    · rw [List.countP_cons_of_neg here]
      exact ih rest

theorem targetedCount_le_one (nodup : (Keyed.keys s.boxes).Nodup) (numbered : s.Numbered)
    (only : ∀ ref other, s.Lit ref → s.Lit other → ref = other) : s.targetedCount ≤ 1 := by
  -- Jacks that stand apart in the list that is counted differ in box, side or index.
  let Apart (p q : Jack) : Prop := p.targeted = true → q.targeted = true → False
  have row {e : Nat × Box} (mem : e ∈ s.boxes) (side : Side) : (e.2.jacks side).Pairwise Apart := by
    refine List.pairwise_iff_getElem.2 fun i j hi hj before here there => ?_
    have same := only ⟨e.1, side, i⟩ ⟨e.1, side, j⟩
      ⟨e.2, mem, Box.lit_iff.2 ⟨_, List.getElem?_eq_getElem hi, here⟩⟩
      ⟨e.2, mem, Box.lit_iff.2 ⟨_, List.getElem?_eq_getElem hj, there⟩⟩
    exact Nat.ne_of_lt before (congrArg JackRef.index same)
  have box {e : Nat × Box} (mem : e ∈ s.boxes) : e.2.jackList.Pairwise Apart := by
    rw [(numbered e mem).jackList_eq]
    refine List.pairwise_append.2 ⟨row mem .inlet, row mem .outlet, fun p hp q hq here there => ?_⟩
    obtain ⟨i, lit⟩ := exists_lit mem .inlet hp here
    obtain ⟨j, other⟩ := exists_lit mem .outlet hq there
    exact absurd (congrArg JackRef.side (only _ _ lit other)) (by simp)
  have boxes : s.boxes.Pairwise fun e f => ∀ p ∈ e.2.jackList, ∀ q ∈ f.2.jackList, Apart p q := by
    refine (List.pairwise_map.1 nodup).imp_of_mem fun {e f} he hf ne p hp q hq here there => ne ?_
    have side {e : Nat × Box} {q : Jack} (there : e ∈ s.boxes) (mem : q ∈ e.2.jackList) :
        ∃ side, q ∈ e.2.jacks side := by
      rw [(numbered e there).jackList_eq] at mem
      exact (List.mem_append.1 mem).elim (fun h => ⟨.inlet, h⟩) fun h => ⟨.outlet, h⟩
    obtain ⟨_, hp⟩ := side he hp
    obtain ⟨_, hq⟩ := side hf hq
    obtain ⟨i, lit⟩ := exists_lit he _ hp here
    obtain ⟨j, other⟩ := exists_lit hf _ hq there
    exact congrArg JackRef.box (only _ _ lit other)
  exact countP_le_one (List.pairwise_flatMap.2 ⟨fun _ => box, boxes⟩)

end Scene

namespace Canvas

open Scene (Dims)

variable {δ : Type} [Document δ] {c t : Canvas} {d : δ}

/-- Every jack that is lit is the target. -/
def Aimed (c : Canvas) : Prop := ∀ ref, c.scene.Lit ref → c.target = some ref

theorem Aimed.of_dims (aimed : Aimed c) (dims : c.scene.Dims t.scene) (target : t.target = c.target) :
    Aimed t := fun ref lit => target.trans (aimed ref (dims ref lit))

/-! ## Aiming -/

theorem target_clearTarget (c : Canvas) : c.clearTarget.target = none := by
  unfold clearTarget
  split
  · assumption
  · rfl

theorem Aimed.not_lit_clearTarget (aimed : Aimed c) (ref : JackRef) : ¬c.clearTarget.scene.Lit ref := by
  unfold clearTarget
  split
  · next none => exact fun lit => absurd (none.symm.trans (aimed ref lit)) (by simp)
  · next p target =>
    intro lit
    have here : ref = p := (Scene.lit_updateJack lit).elim
      (fun was => Option.some.inj ((aimed ref was).symm.trans target)) id
    exact Scene.not_lit_putOut c.scene p (here ▸ lit)

theorem Aimed.clearTarget (aimed : Aimed c) : Aimed c.clearTarget :=
  fun ref lit => absurd lit (aimed.not_lit_clearTarget ref)

theorem Aimed.aim (aimed : Aimed c) (target : Option JackRef) : Aimed (c.aim target) := by
  unfold Canvas.aim
  split
  · exact aimed
  · dsimp only
    split
    · exact aimed.clearTarget
    · next p =>
      split
      · intro ref lit
        rcases Scene.lit_updateJack lit with old | rfl
        · exact absurd old (aimed.not_lit_clearTarget ref)
        · rfl
      · exact aimed.clearTarget

theorem Aimed.dropLostDrag (aimed : Aimed c) : Aimed c.dropLostDrag := by
  unfold Canvas.dropLostDrag
  split
  · exact Aimed.clearTarget (c := { c with drag := .none }) aimed
  · exact aimed

theorem dims_markSelection (c : Canvas) : c.scene.Dims c.markSelection.scene :=
  Scene.dims_mapBoxes (Scene.marked_mark c.selection c.scene).recast.boxes fun _ _ =>
    Box.dims_of_jacks rfl rfl rfl

theorem Aimed.sync (aimed : Aimed c) (numbered : c.scene.Numbered) (d : δ) :
    Aimed (c.sync d).1 := by
  refine Aimed.dropLostDrag (aimed.of_dims ?_ rfl)
  exact (numbered.dims_reconcile _).trans (dims_markSelection _)

theorem Aimed.put (aimed : Aimed c) (put : Box → Box) (dims : ∀ b, Box.Dims b (put b)) (ks : List Nat)
    (boxes : t.scene.boxes = (c.scene.updateBoxes ks put).boxes) (target : t.target = c.target) :
    Aimed t :=
  aimed.of_dims ((Scene.dims_updateBoxes c.scene ks dims).trans (Scene.dims_of_boxes boxes)) target

theorem Aimed.fit (aimed : Aimed c) (key : Nat) (bounds : Box → Rect) (boxes : t.scene.boxes
      = (c.scene.updateBox key fun b => { b with bounds := bounds b }.layoutJacks).boxes)
    (target : t.target = c.target) : Aimed t :=
  aimed.of_dims ((Scene.dims_updateBox fun b _ =>
    Box.dims_layoutJacks { b with bounds := bounds b }).trans (Scene.dims_of_boxes boxes)) target

theorem Aimed.cancelDrag (aimed : Aimed c) : Aimed c.cancelDrag := by
  unfold Canvas.cancelDrag
  split
  · exact aimed
  · refine aimed.put (fun b => { b with bounds := b.home }) (fun b => ?_) c.selection.boxes rfl rfl
    exact Box.dims_of_jacks rfl rfl rfl
  · exact aimed.fit _ Box.home rfl rfl
  · exact Aimed.clearTarget (c := { c with drag := .none }) aimed
  · unfold cancelSegment
    split <;> exact aimed
  · exact aimed

/-! ## Calls -/

theorem Aimed.recabled (aimed : Aimed c) (recabled : Recabled c t) : Aimed t :=
  aimed.of_dims (Scene.dims_of_boxes recabled.boxes) recabled.target

theorem Aimed.showOffset (aimed : Aimed c) (offset : Point) : Aimed (c.showOffset offset) :=
  aimed.put (fun b => { b with bounds := b.home.shifted offset })
    (fun _ => Box.dims_of_jacks rfl rfl rfl) c.selection.boxes rfl rfl

theorem Aimed.endMove (aimed : Aimed c) (d : δ) (now : Nat) : Aimed (c.endMove d now).1 := by
  unfold Canvas.endMove
  split
  · next offset _ =>
    have shown := Aimed.showOffset (c := { c with drag := .none, snapper := c.snapper.clear }) aimed
      (c.snapper.settle offset)
    dsimp only
    split
    · exact shown
    · split
      · exact shown
      · split
        · refine Aimed.recabled ?_ (recabled_routeBlocked ..)
          exact shown
        · exact shown
  · exact aimed

theorem Aimed.cancelBlank (aimed : Aimed c) (key : Nat) : Aimed (c.cancelBlank key).1 := by
  unfold Canvas.cancelBlank
  split
  · exact aimed.of_dims (Scene.dims_foldl_removeBox c.scene [key]) rfl
  · exact aimed

theorem dims_placeBoxes (s : Scene) (moves : Keyed (Nat × Point)) :
    s.Dims (moves.foldl placeBox s) := by
  induction moves generalizing s with
  | nil => exact .refl s
  | cons m moves ih =>
    have first : s.Dims (placeBox s m) :=
      Scene.dims_updateBox fun _ _ => Box.dims_of_jacks rfl rfl rfl
    exact first.trans (ih _)

theorem Aimed.run (aimed : Aimed c) (numbered : c.scene.Numbered) (call : Call) (d : δ) :
    Aimed (call.run c d).1 := by
  have marked {t : Canvas} (scene : t.scene = c.scene) (target : t.target = c.target) :
      Aimed t.markSelection :=
    aimed.of_dims (scene ▸ dims_markSelection t) target
  have same {t : Canvas} (boxes : t.scene.boxes = c.scene.boxes) (target : t.target = c.target) :
      Aimed t :=
    aimed.of_dims (Scene.dims_of_boxes boxes) target
  have led (recables : call.Recables) : Aimed (call.run c d).1 :=
    aimed.recabled (Call.recabled recables c d)
  cases call with
  | setSettings | setViewport | setGridOrigin | requestSync => exact aimed
  | setLocked locked =>
    cases locked with
    | true =>
      refine aimed.cancelDrag.of_dims ?_ rfl
      exact dims_markSelection { c.cancelDrag with selection := {} }
    | false => exact aimed
  | sync => exact aimed.sync numbered d
  | idle =>
    simp only [Call.run, Canvas.idle]
    split
    · exact aimed
    · exact aimed.sync numbered d
  | selectBox key toggle =>
    simp only [Call.run, selectBox]
    split
    · exact aimed
    · exact marked rfl rfl
  | selectCable key toggle =>
    simp only [Call.run, selectCable]
    split
    · exact aimed
    · exact marked rfl rfl
  | deselectAll => exact marked rfl rfl
  | beginLasso position =>
    simp only [Call.run, beginLasso]
    split
    · exact aimed
    · exact marked (t := { c with selection := {} }) rfl rfl
  | updateLasso position =>
    simp only [Call.run, updateLasso]
    split <;> exact aimed
  | endLasso =>
    simp only [Call.run, endLasso]
    split
    · exact marked rfl rfl
    · exact aimed
  | beginMove grabbed position =>
    simp only [Call.run, beginMove]
    split
    · exact aimed
    · refine Aimed.put (c := if _ then _ else _) ?_ (fun b => { b with home := b.bounds })
        (fun _ => Box.dims_of_jacks rfl rfl rfl) _ rfl rfl
      split
      · exact aimed
      · exact marked rfl rfl
  | dragMove position bypass now =>
    simp only [Call.run, dragMove]
    split
    · split
      · exact aimed
      · exact Aimed.showOffset (c := { c with snapper := _ }) aimed _
    · exact aimed
  | endMove now => exact aimed.endMove d now
  | beginResize key edges position =>
    simp only [Call.run, beginResize]
    split
    · exact aimed
    · exact aimed.of_dims (Scene.dims_updateBox fun _ _ => Box.dims_of_jacks rfl rfl rfl) rfl
  | dragResize position bypass now =>
    simp only [Call.run, dragResize]
    split
    · split
      · exact aimed
      · exact aimed.fit _ (fun _ => _) rfl rfl
    · exact aimed
  | endResize =>
    simp only [Call.run, endResize]
    repeat' split
    all_goals exact same rfl rfl
  | deleteSelection =>
    simp only [Call.run, deleteSelection]
    split
    · exact aimed
    · split
      · split <;> exact same rfl rfl
      · split <;> exact aimed.of_dims ((Scene.dims_foldl_removeBox c.scene _).trans
          (dims_markSelection _)) rfl
  | alignSelection a =>
    simp only [Call.run, alignSelection]
    split
    · exact aimed
    · split
      · exact aimed
      · split
        · exact same rfl rfl
        · exact aimed.of_dims ((dims_placeBoxes c.scene (c.alignMoves a)).trans
            (Scene.dims_of_boxes rfl)) rfl
  | beginConnection jack multi =>
    simp only [Call.run, beginConnection]
    repeat' split
    all_goals exact same rfl rfl
  | dragConnection position =>
    simp only [Call.run, dragConnection]
    split
    · next sources _ _ =>
      have moved : Aimed { c with drag := .connection sources position } := aimed
      split
      · exact moved
      · exact moved.aim _
    · exact aimed
  | endConnection =>
    simp only [Call.run, endConnection]
    split
    · have out : Aimed ({ c with drag := .none }.clearTarget) :=
        Aimed.clearTarget (c := { c with drag := .none }) aimed
      split
      · exact out
      · split
        · exact out
        · exact out
    · exact same rfl rfl
  | cancelConnection =>
    simp only [Call.run, cancelConnection]
    split
    · exact Aimed.clearTarget (c := { c with drag := .none }) aimed
    · exact aimed
  | beginSegment key position =>
    simp only [Call.run, beginSegment]
    repeat' split
    all_goals exact same rfl rfl
  | dragSegment position =>
    simp only [Call.run, dragSegment]
    repeat' split
    all_goals exact same rfl rfl
  | endSegment now =>
    simp only [Call.run, endSegment, pushToken]
    repeat' split
    all_goals exact same rfl rfl
  | cancelSegment =>
    simp only [Call.run, cancelSegment]
    split <;> exact same rfl rfl
  | cancelDrag => exact aimed.cancelDrag
  | routeCable | straightenCable | reanchorCable | pushToken | tick | flushTokens =>
    exact led trivial
  | placeBlank position =>
    simp only [Call.run, placeBlank]
    split
    · exact aimed
    · refine aimed.of_dims ((Scene.dims_addBox c.scene ?_).trans (dims_markSelection _)) rfl
      exact fun _ _ => Box.not_lit_of_bare rfl
  | commitBlank key text =>
    simp only [Call.run, commitBlank]
    split
    · exact aimed
    · split
      · exact aimed
      · split
        · exact aimed.cancelBlank key
        · split
          · exact aimed
          · exact aimed.of_dims (Scene.dims_updateBox fun _ _ =>
              Box.dims_of_jacks rfl rfl rfl) rfl
  | cancelBlank key => exact aimed.cancelBlank key

theorem Reached.aimed (reached : Reached c) : Aimed c := by
  induction reached with
  | ofSettings settings =>
    exact fun ref ⟨_, there, _⟩ => absurd (Arena.mem_entries.1 there).1 List.not_mem_nil
  | call reached d call ih => exact ih.run reached.numbered call d

/-- Whatever is done with a canvas and whatever becomes of its documents meanwhile, at most one jack is
lit, and that one is the target. -/
theorem highlight_exclusive (reached : Reached c) :
    c.scene.targetedCount ≤ 1 ∧ ∀ ref, c.scene.Lit ref → c.target = some ref := by
  refine ⟨Scene.targetedCount_le_one reached.regular.boxes reached.numbered
    fun ref other here there => ?_, reached.aimed⟩
  exact Option.some.inj ((reached.aimed ref here).symm.trans (reached.aimed other there))

/-- A cable is drawn to the second inlet of a box. The inlet goes and comes back, and the cable is
drawn to the first one. -/
def regrown : List Event :=
  [.mutate (.insertNode ⟨"osc~", ⟨0, 0, 40, 20⟩, [], [true]⟩),
    .mutate (.insertNode ⟨"dac~", ⟨0, 100, 80, 20⟩, [true, true], []⟩), .call .sync,
    .call (.beginConnection ⟨1, .outlet, 0⟩ false), .call (.dragConnection ⟨75, 100⟩),
    .mutate (.setJacks 2 [true] []), .call .sync, .mutate (.setJacks 2 [true, true] []), .call .sync,
    .call (.dragConnection ⟨5, 100⟩)]

theorem highlight_exclusive_regrown : Reached (play {} {} regrown).1 ∧
    (play {} {} regrown).1.scene.Lit ⟨2, .inlet, 0⟩ ∧
    (play {} {} (regrown.take 5)).1.target = some ⟨2, .inlet, 1⟩ ∧
    (play {} {} regrown).1.scene.targetedCount ≤ 1 ∧
    (play {} {} regrown).1.target = some ⟨2, .inlet, 0⟩ := by
  have reached : Reached (play {} {} regrown).1 := reached_play {} {} regrown
  have lit : (play {} {} regrown).1.scene.Lit ⟨2, .inlet, 0⟩ := Scene.lit_of_jack?
    reached.regular.boxOrder (by decide +kernel)
  obtain ⟨one, named⟩ := highlight_exclusive reached
  exact ⟨reached, lit, by decide +kernel, one, named _ lit⟩

end Canvas

end Patchbay
