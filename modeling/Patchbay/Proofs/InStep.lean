import Patchbay.Proofs.Sync
import Patchbay.Proofs.Towed

/-!
# Canvas and patch in step

A gesture is shown on the canvas by one arithmetic and put into the patch by another. Moves, resizes
and alignments leave the two in step all the same: the next pass finds nothing to do about the boxes.
-/

namespace Patchbay

open Keyed (keys mapValues update change)

namespace Scene

variable {c d : Contents} {s t : Scene} {key : Nat} {g : Box → Box}

theorem Abreast.update (abreast : Abreast c s) (outline : t.outline = s.outline)
    (boxes : t.boxes = update s.boxes key g) (handle : ∀ b, (g b).handle = b.handle)
    (steady : ∀ b h info j, s.box? key = some b → b.handle = some h → b.Steady info j →
      (g b).Steady info j) : Abreast c t := by
  rw [Keyed.update_eq_mapValues] at boxes
  refine abreast.keep outline boxes rfl (fun k b => ?_) fun e mem h info j named fits => ?_
  · split
    · exact handle b
    · rfl
  · split
    · next here =>
      subst here
      exact steady e.2 h info j (box?_of_mem mem) named fits
    · exact fits

theorem Abreast.put {b : Box} {h : Nat} {r : Rect} (abreast : Abreast c s)
    (outline : t.outline = s.outline) (boxes : t.boxes = Keyed.update s.boxes key g)
    (handle : ∀ b, (g b).handle = b.handle) (there : s.box? key = some b) (named : b.handle = some h)
    (nodes : d.nodes = mapValues c.nodes (change [(h, Node.relaid fun _ => r)]))
    (steady : ∀ info j, b.Steady info j → (g b).Steady { info with bounds := r } j) :
    Abreast d t := by
  have mem : (key, b) ∈ s.boxes := mem_boxes abreast.wf.boxOrder there
  rw [Keyed.update_eq_mapValues] at boxes
  refine abreast.relay [r] (fun _ => h) (fun r _ => r) outline boxes nodes (List.nodup_singleton h)
    (fun k b => ?_) ?_ ?_
  · split
    · exact handle b
    · rfl
  · intro e mem' r' listed info j named' fits
    obtain rfl := eq_of_handle abreast.wf.handles mem mem' named named'
    obtain rfl := List.mem_singleton.1 listed
    rw [if_pos rfl]
    exact steady info j fits
  · intro e mem' h' info j named' apart fits
    have other : e.1 ≠ key := by
      rintro rfl
      obtain rfl := Keyed.eq_of_mem abreast.wf.boxes mem mem'
      exact apart (List.mem_singleton.2 (Option.some.inj (named'.symm.trans named)))
    rw [if_neg other]
    exact fits

end Scene

theorem Widget.minimumSize_nonneg (w : Widget) : 0 ≤ w.minimumSize.1 ∧ 0 ≤ w.minimumSize.2 := by
  unfold minimumSize
  split <;> decide

namespace Canvas

open Patch (pair emptied)
open Scene (Abreast)

variable {c t : Canvas} {p : Patch} {key : Nat} {edges : Edges} {start : Point} {a : Alignment}

/-! ## Resizes -/

theorem expanded_keepMinimum (r : Rect) (edges : Edges) (w : Widget) :
    ((keepMinimum r edges w.minimumSize).reduced margin).expanded margin
      = keepMinimum r edges w.minimumSize := by
  obtain ⟨width, height⟩ := w.minimumSize_nonneg
  simp only [keepMinimum, Rect.reduced, Rect.expanded, Rect.mk.injEq]
  omega

def widen (c : Canvas) : Tug → Canvas
  | .stop s => (c.dragResize s.position s.bypass s.now).1
  | .tune t => c.tune t

structure Widened (c : Canvas) (key : Nat) (t : Canvas) : Prop where
  drag : ∃ edges start offset, t.drag = .resize key edges start offset
  outline : t.scene.outline = c.scene.outline
  boxes : ∃ g, t.scene.boxArena = c.scene.boxArena.update key g ∧ ∀ b, (g b).Reshaped b

theorem widened_beginResize (taken : (c.beginResize key edges start).2 = true) :
    Widened c key (c.beginResize key edges start).1 := by
  have outline := outline_beginResize c key edges start
  unfold beginResize at taken outline ⊢
  split at taken
  · exact absurd taken Bool.false_ne_true
  · next free =>
    rw [if_neg free] at outline ⊢
    exact ⟨⟨edges, start, .origin, rfl⟩, outline, _, rfl, Box.reshaped_grip⟩

theorem widen_stop {offset : Point} {b : Box} (drag : t.drag = .resize key edges start offset)
    (found : t.scene.box? key = some b) (s : Stop) : ∃ r offset',
      (r.reduced margin).expanded margin = r ∧
      (t.widen (.stop s)).drag = .resize key edges start offset' ∧
      (t.widen (.stop s)).scene.boxArena
        = t.scene.boxArena.update key fun b => { b with bounds := r }.layoutJacks := by
  simp only [widen, dragResize, drag, found]
  exact ⟨_, _, expanded_keepMinimum _ _ _, rfl, rfl⟩

theorem Widened.widen (widened : Widened c key t) (tug : Tug) : Widened c key (t.widen tug) := by
  obtain ⟨⟨edges, start, offset, drag⟩, outline, g, boxes, reshaped⟩ := widened
  cases tug with
  | stop s =>
    cases found : t.scene.box? key with
    | none =>
      have still : t.widen (.stop s) = t := by simp only [Canvas.widen, dragResize, drag, found]
      exact still.symm ▸ ⟨⟨edges, start, offset, drag⟩, outline, g, boxes, reshaped⟩
    | some b =>
      obtain ⟨r, offset', whole, drag', boxes'⟩ := widen_stop drag found s
      refine ⟨⟨edges, start, offset', drag'⟩, (outline_dragResize ..).trans outline, _, ?_,
        fun b => (reshaped b).put whole⟩
      rw [boxes', boxes, Arena.update_update]
      rfl
  | tune u =>
    obtain ⟨scene, drag', -⟩ := tune_rest t u
    exact ⟨⟨edges, start, offset, drag'.trans drag⟩, scene ▸ outline, g, scene ▸ boxes, reshaped⟩

theorem widen_cases (free : c.drag = .none) (key : Nat) (edges : Edges) (start : Point)
    (tugs : List Tug) : let t := tugs.foldl widen (c.beginResize key edges start).1;
    (t.scene = c.scene ∧ t.drag = .none) ∨ Widened c key t := by
  by_cases taken : (c.beginResize key edges start).2 = true
  · exact Or.inr (List.foldlRecOn (motive := Widened c key) _ _ (widened_beginResize taken)
      fun t widened tug _ => widened.widen tug)
  · have idle : (c.beginResize key edges start).1 = c := by
      unfold beginResize at taken ⊢
      split at taken
      · next busy => rw [if_pos busy]
      · exact absurd rfl taken
    rw [idle]
    refine Or.inl (List.foldlRecOn (motive := fun t : Canvas => t.scene = c.scene ∧ t.drag = .none)
      _ _ ⟨rfl, free⟩ ?_)
    rintro t ⟨scene, drag⟩ tug -
    cases tug with
    | stop s =>
      simp only [widen, dragResize, drag]
      exact ⟨scene, trivial⟩
    | tune u =>
      obtain ⟨scene', drag', -⟩ := tune_rest t u
      exact ⟨scene'.trans scene, drag'.trans drag⟩

theorem Widened.endResize (widened : Widened c key t) (abreast : Abreast p.toContents c.scene) :
    (∃ r, (t.endResize p).2.2 = .ok r) ∧
      Abreast (t.endResize p).2.1.toContents (t.endResize p).1.scene := by
  obtain ⟨⟨edges, start, offset, drag⟩, outline, g, boxes, reshaped⟩ := widened
  have handle (b : Box) : (g b).handle = b.handle := congrArg Box.Tag.handle (reshaped b).tag
  have there : t.scene.box? key = (c.scene.box? key).map g := by
    rw [Scene.box?, boxes, Arena.get?_update_self, Scene.box?]
  have boxes : t.scene.boxes = update c.scene.boxes key g := by
    rw [Scene.boxes, boxes]
    exact c.scene.boxArena.entries_update key g
  simp only [Canvas.endResize, drag]
  cases found : c.scene.box? key with
  | none =>
    rw [found, Option.map_none] at there
    simp only [there]
    refine ⟨⟨_, rfl⟩, abreast.update outline boxes handle fun b _ _ _ here => ?_⟩
    exact absurd (found.symm.trans here) (by simp)
  | some b =>
    rw [found, Option.map_some] at there
    simp only [there]
    by_cases still : (g b).bounds = (g b).home
    · simp only [still, if_true]
      refine ⟨⟨_, rfl⟩, abreast.update outline boxes handle fun b' _ info j here _ steady => ?_⟩
      obtain rfl := Option.some.inj (found.symm.trans here)
      exact steady.reshaped (reshaped b) (still.trans ((reshaped b).home.trans steady.bounds))
    · simp only [still, if_false, handle b]
      cases named : b.handle with
      | none =>
        refine ⟨⟨_, rfl⟩, abreast.update outline boxes handle fun b' h _ _ here named' => ?_⟩
        obtain rfl := Option.some.inj (found.symm.trans here)
        exact absurd (named.symm.trans named') (by simp)
      | some h =>
        have listed := abreast.listed (key, b) (Scene.mem_boxes abreast.wf.boxOrder found) h named
        obtain ⟨q, made, nodes⟩ := (Patch.lays_setBounds (fun _ : Rect => h) id).inSequence
          [(g b).content] abreast.nodup (fun _ _ => listed) (List.nodup_singleton h) resizeLabel
        have made : Document.inSequence p resizeLabel (fun d => Document.editAll
          (fun d r => Document.setBounds d h r) d [(g b).content]) = (q, .ok ()) := made
        simp only [made, Except.map]
        -- Bounds that are not those of the start are those of a stop.
        have whole := (reshaped b).bounds.resolve_left fun same =>
          still (same.trans (reshaped b).home.symm)
        exact ⟨⟨_, rfl⟩, abreast.put outline boxes handle found named nodes
          fun info j steady => steady.reshaped (reshaped b) whole.symm⟩

/-! ## Alignments -/

theorem alignable_of_mem {m : Nat × Nat × Point} (mem : m ∈ c.alignMoves a) :
    ∃ r, (m.1, m.2.1, r) ∈ c.alignable := by
  simp only [alignMoves] at mem
  split at mem
  · exact absurd mem List.not_mem_nil
  · obtain ⟨⟨key, h, r⟩, there, made⟩ := List.mem_filterMap.1 mem
    dsimp only at made
    split at made
    · exact absurd made (by simp)
    · obtain rfl := Option.some.inj made
      exact ⟨r, there⟩

theorem box?_of_mem_alignMoves {m : Nat × Nat × Point} (mem : m ∈ c.alignMoves a) :
    ∃ b, c.scene.box? m.1 = some b ∧ b.handle = some m.2.1 := by
  obtain ⟨r, there⟩ := alignable_of_mem mem
  obtain ⟨key, -, made⟩ := List.mem_filterMap.1 there
  simp only [Option.bind_eq_bind, Option.bind_eq_some_iff, Option.pure_def, Option.some.injEq,
    Prod.mk.injEq] at made
  obtain ⟨b, found, h, named, rfl, rfl, -⟩ := made
  exact ⟨b, found, named⟩

theorem nodup_alignMoves (chosen : c.selection.boxes.Nodup) (a : Alignment) :
    (keys (c.alignMoves a)).Nodup := by
  have items : (keys c.alignable).Nodup := by
    refine Keyed.nodup_filterMap id (fun key x made => ?_) ((List.map_id _).symm ▸ chosen)
    simp only [Option.bind_eq_bind, Option.bind_eq_some_iff, Option.pure_def, Option.some.injEq]
      at made
    obtain ⟨b, -, h, -, rfl⟩ := made
    rfl
  simp only [alignMoves]
  split
  · exact List.nodup_nil
  · refine Keyed.nodup_filterMap Prod.fst (fun item x made => ?_) items
    split at made
    · exact absurd made (by simp)
    · obtain rfl := Option.some.inj made
      rfl

def putPlaces (moves : Keyed (Nat × Point)) : Keyed (Box → Box) :=
  moves.map fun m =>
    (m.1, fun b => { b with bounds := b.bounds.withPosition (m.2.2 - ⟨margin, margin⟩) })

theorem keys_putPlaces (moves : Keyed (Nat × Point)) : keys (putPlaces moves) = keys moves := by
  simp [keys, putPlaces, Function.comp_def]

theorem handle_change_putPlaces (moves : Keyed (Nat × Point)) (key : Nat) (b : Box) :
    (change (putPlaces moves) key b).handle = b.handle := by
  refine Keyed.change_keeps (g := Box.handle) (fun e mem b => ?_) key b
  obtain ⟨m, -, rfl⟩ := List.mem_map.1 mem
  rfl

theorem boxes_placeBoxes (s : Scene) {moves : Keyed (Nat × Point)} (nodup : (keys moves).Nodup) :
    (moves.foldl placeBox s).boxes = mapValues s.boxes (change (putPlaces moves)) := by
  induction moves generalizing s with
  | nil => exact (Keyed.mapValues_eq_self fun _ _ => rfl).symm
  | cons m moves ih =>
    obtain ⟨fresh, nodup⟩ := List.nodup_cons.1 nodup
    have first : (placeBox s m).boxes = update s.boxes m.1 fun b =>
        { b with bounds := b.bounds.withPosition (m.2.2 - ⟨margin, margin⟩) } :=
      Scene.boxes_updateBox s m.1 _
    rw [List.foldl_cons, ih (placeBox s m) nodup, first]
    exact Keyed.mapValues_update_change (keys_putPlaces moves ▸ fresh)

theorem owner_of_mem_alignMoves (exact : c.scene.boxArena.Exact) {m : Nat × Nat × Point}
    (mem : m ∈ c.alignMoves a) : ∃ b, (m.1, b) ∈ c.scene.boxes ∧ b.handle = some m.2.1 := by
  obtain ⟨b, found, named⟩ := box?_of_mem_alignMoves mem
  exact ⟨b, Scene.mem_boxes exact found, named⟩

theorem distinct_alignMoves (abreast : Abreast p.toContents c.scene) (chosen : c.selection.boxes.Nodup)
    (a : Alignment) : ((c.alignMoves a).map fun m => m.2.1).Nodup := by
  have nodup := nodup_alignMoves chosen a
  refine List.Nodup.map_on (fun m mem m' mem' same => ?_) (List.Nodup.of_map _ nodup)
  obtain ⟨b, there, named⟩ := owner_of_mem_alignMoves abreast.wf.boxOrder mem
  obtain ⟨b', there', named'⟩ := owner_of_mem_alignMoves abreast.wf.boxOrder mem'
  have one := Scene.eq_of_handle abreast.wf.handles there there' named (same ▸ named')
  exact List.inj_on_of_nodup_map nodup mem mem' (Prod.mk.inj one).1

def nodePlaces (moves : Keyed (Nat × Point)) : Keyed (Node → Node) :=
  moves.map fun m => (m.2.1, Node.relaid fun r => r.withPosition m.2.2)

theorem keys_nodePlaces (moves : Keyed (Nat × Point)) :
    keys (nodePlaces moves) = moves.map fun m => m.2.1 := by
  simp [keys, nodePlaces, Function.comp_def]

/-- What an alignment does, in the scene and in the patch. -/
structure Aligned (a : Alignment) (c v : Canvas) (p q : Patch) : Prop where
  locked : v.locked = c.locked
  selection : v.selection = c.selection
  outline : v.scene.outline = c.scene.outline
  boxes : v.scene.boxes = mapValues c.scene.boxes (change (putPlaces (c.alignMoves a)))
  nodes : q.nodes = mapValues p.nodes (change (nodePlaces (c.alignMoves a)))

theorem exists_aligned (abreast : Abreast p.toContents c.scene) (chosen : c.selection.boxes.Nodup)
    (unlocked : c.locked = false) (a : Alignment) : ∃ v q,
      c.alignSelection p a = (v, q, .ok (c.alignMoves a).length) ∧ Aligned a c v p q := by
  have nodup := nodup_alignMoves chosen a
  have distinct := distinct_alignMoves abreast chosen a
  have known : ∀ m ∈ c.alignMoves a, m.2.1 ∈ keys p.nodes := by
    intro m mem
    obtain ⟨b, there, named⟩ := owner_of_mem_alignMoves abreast.wf.boxOrder mem
    exact abreast.listed (m.1, b) there _ named
  simp only [alignSelection, unlocked, Bool.false_eq_true, if_false]
  split
  · next none =>
    have still := List.isEmpty_iff.1 none
    have same {α : Type} (xs : Keyed α) : xs = mapValues xs (change []) :=
      (Keyed.mapValues_eq_self fun _ _ => rfl).symm
    rw [still]
    exact ⟨c, p, rfl, rfl, rfl, rfl, still ▸ same _, still ▸ same _⟩
  · obtain ⟨q, made, nodes⟩ := (Patch.lays_moveNodeTo (fun m : Nat × Nat × Point => m.2.1)
      fun m => m.2.2).inSequence (c.alignMoves a) abreast.nodup known distinct alignLabel
    have made : Document.inSequence p alignLabel (fun d => Document.editAll
      (fun d (m : Nat × Nat × Point) => Document.moveNodeTo d m.2.1 m.2.2) d (c.alignMoves a))
        = (q, .ok ()) := made
    simp only [made]
    exact ⟨_, q, rfl, rfl, rfl, (outline_follow _ _).trans (placed_foldl c.scene _).1,
      boxes_placeBoxes c.scene nodup, nodes⟩

theorem abreast_alignSelection (abreast : Abreast p.toContents c.scene)
    (chosen : c.selection.boxes.Nodup) (a : Alignment) :
    (∃ n, (c.alignSelection p a).2.2 = .ok n) ∧
      Abreast (c.alignSelection p a).2.1.toContents (c.alignSelection p a).1.scene := by
  cases locked : c.locked with
  | true =>
    simp only [alignSelection, locked, if_true]
    exact ⟨⟨_, rfl⟩, abreast⟩
  | false =>
    obtain ⟨v, q, made, -, -, outline, boxes, nodes⟩ := exists_aligned abreast chosen locked a
    have nodup := nodup_alignMoves chosen a
    have owner {m : Nat × Nat × Point} (mem : m ∈ c.alignMoves a) :=
      owner_of_mem_alignMoves abreast.wf.boxOrder mem
    have distinct := distinct_alignMoves abreast chosen a
    rw [made]
    generalize c.alignMoves a = moves at *
    refine ⟨⟨_, rfl⟩, abreast.relay moves _ _ outline boxes nodes distinct
      (handle_change_putPlaces moves) ?_ ?_⟩
    · intro e mem m listed info j named steady
      obtain ⟨b, there, named'⟩ := owner listed
      obtain rfl := Scene.eq_of_handle abreast.wf.handles there mem named' named
      have moved : change (putPlaces moves) m.1 = _ :=
        Keyed.change_of_mem (keys_putPlaces moves ▸ nodup) (List.mem_map.2 ⟨m, listed, rfl⟩)
      rw [moved]
      exact steady.placed m.2.2
    · intro e mem h info j named apart steady
      have still : change (putPlaces moves) e.1 = id := by
        refine Keyed.change_of_fresh fun there => ?_
        obtain ⟨m, listed, same⟩ := List.mem_map.1 (keys_putPlaces moves ▸ there)
        obtain ⟨b, here, named'⟩ := owner listed
        obtain rfl := Keyed.eq_of_mem abreast.wf.boxes (same ▸ here) mem
        exact apart (List.mem_map.2 ⟨m, listed, Option.some.inj (named'.symm.trans named)⟩)
      rw [still]
      exact steady

/-! ## The next pass -/

/-- The next pass neither adds nor updates nor removes a box. -/
def InStep (c : Canvas) (p : Patch) : Prop := (c.sync p).2.2.boxes = (0, 0, 0)

instance (c : Canvas) (p : Patch) : Decidable (InStep c p) := inferInstanceAs (Decidable (_ = _))

/-- Whatever boxes are moved, resized or aligned on a canvas, it is in step with the patch again when
they are let go, and they are let go where they were last shown. -/
structure KeepsInStep (c : Canvas) (p : Patch) : Prop where
  move : ∀ (grabbed : Nat) (start : Point) (tugs : List Tug) (now : Nat),
    let (t, last) := tugs.foldl tow ((c.beginMove grabbed start).1, .origin);
    (t.endMove p now).2.2 = .ok last ∧ InStep (t.endMove p now).1 (t.endMove p now).2.1
  resize : ∀ (key : Nat) (edges : Edges) (start : Point) (tugs : List Tug),
    let t := tugs.foldl widen (c.beginResize key edges start).1;
    (∃ r, (t.endResize p).2.2 = .ok r) ∧ InStep (t.endResize p).1 (t.endResize p).2.1
  align : ∀ a : Alignment, (∃ n, (c.alignSelection p a).2.2 = .ok n) ∧
    InStep (c.alignSelection p a).1 (c.alignSelection p a).2.1

theorem inStep_of_abreast (abreast : Abreast p.toContents c.scene) : InStep c p := abreast.report

theorem keepsInStep (abreast : Abreast p.toContents c.scene) (free : c.drag = .none)
    (chosen : c.selection.boxes.Nodup) : KeepsInStep c p where
  move grabbed start tugs now := by
    have cases := tow_cases free chosen grabbed start tugs
    generalize tugs.foldl tow _ = towed at cases ⊢
    obtain ⟨t, last⟩ := towed
    rcases cases with ⟨scene, idle, here⟩ | ⟨moved, distinct, lifted⟩
    · dsimp only at scene idle here ⊢
      simp only [endMove, idle, here, true_and]
      exact inStep_of_abreast (c := { t with drag := .none }) (scene.symm ▸ abreast)
    · obtain ⟨ok, landed⟩ := lifted.endMove distinct abreast now
      exact ⟨ok, inStep_of_abreast landed⟩
  resize key edges start tugs := by
    have cases := widen_cases free key edges start tugs
    generalize tugs.foldl widen _ = t at cases ⊢
    rcases cases with ⟨scene, idle⟩ | widened
    · simp only [endResize, idle]
      refine ⟨⟨_, rfl⟩, inStep_of_abreast (c := { t with drag := .none }) ?_⟩
      exact scene.symm ▸ abreast
    · obtain ⟨ok, landed⟩ := widened.endResize abreast
      exact ⟨ok, inStep_of_abreast landed⟩
  align a := by
    obtain ⟨ok, landed⟩ := abreast_alignSelection abreast chosen a
    exact ⟨ok, inStep_of_abreast landed⟩

theorem abreast_sync (regular : c.scene.Regular) (nodup : (keys p.nodes).Nodup)
    (distinct : (c.sync p).1.scene.handles.Nodup) :
    Abreast (c.sync p).2.1.toContents (c.sync p).1.scene := by
  obtain ⟨f, g, marked⟩ := marked_sync c p
  have same := Scene.handles_of_outline marked.recast.outline
  exact marked.abreast (regular.abreast nodup (same ▸ distinct))

/-- A canvas that was just brought in line with a patch and on which no two boxes have the same handle
stays in step with it; and no two have as long as the canvas stays with one patch. -/
theorem keepsInStep_sync :
    (∀ c, Reached c → ∀ p : Patch, (keys p.nodes).Nodup → (c.sync p).1.drag = .none →
      (c.sync p).1.scene.handles.Nodup → KeepsInStep (c.sync p).1 (c.sync p).2.1) ∧
    ∀ (settings : CanvasSettings) (p : Patch), p.Loaded → ∀ events : List Event,
      let played := play settings p events;
      Reached played.1 ∧ (keys played.2.nodes).Nodup ∧
        (played.1.sync played.2).1.scene.handles.Nodup := by
  constructor
  · intro c reached p nodup free distinct
    exact keepsInStep (abreast_sync reached.regular nodup distinct) free
      (reached.call p .sync).chosen
  · intro settings p loaded events
    have joined := joined_play settings loaded events
    exact ⟨reached_play settings p events, joined.bounded.nodup, (joined.call .sync).wf.handles⟩

theorem keepsInStep_sync_strayed :
    (Reached strayed ∧ (keys pair.nodes).Nodup ∧ (strayed.sync pair).1.drag = .none ∧
      (strayed.sync pair).1.scene.handles.Nodup ∧
        KeepsInStep (strayed.sync pair).1 (strayed.sync pair).2.1) ∧
    (Patch.Loaded {} ∧
      let played := play {} {} [.call (.placeBlank ⟨5, 5⟩), .call (.commitBlank 1 "a")];
      Reached played.1 ∧ (keys played.2.nodes).Nodup ∧
        (played.1.sync played.2).1.scene.handles.Nodup) := by
  have nodup : (keys pair.nodes).Nodup := by decide
  have free : (strayed.sync pair).1.drag = .none := by decide +kernel
  have distinct : (strayed.sync pair).1.scene.handles.Nodup := by decide +kernel
  exact ⟨⟨reached_strayed, nodup, free, distinct,
    keepsInStep_sync.1 strayed reached_strayed pair nodup free distinct⟩,
    .empty, keepsInStep_sync.2 {} {} .empty _⟩

/-- Boxes of two documents that go by one handle take turns, also after one of them was moved. -/
theorem move_strayed : ¬ ∀ c, Reached c → ∀ p : Patch, (keys p.nodes).Nodup →
    (∀ e ∈ p.nodes, 0 ≤ e.2.bounds.width ∧ 0 ≤ e.2.bounds.height) → (c.sync p).1.drag = .none →
    ∀ (grabbed : Nat) (start : Point) (tugs : List Tug) (now : Nat) (offset : Point),
      let t := (tugs.foldl tow (((c.sync p).1.beginMove grabbed start).1, .origin)).1;
      (t.endMove (c.sync p).2.1 now).2.2 = .ok offset →
        InStep (t.endMove (c.sync p).2.1 now).1 (t.endMove (c.sync p).2.1 now).2.1 := by
  intro always
  have reached := reached_strayed.call emptied (.commitBlank 3 "b")
  have nodup : (keys ((Call.commitBlank 3 "b").run strayed emptied).2.nodes).Nodup := by decide +kernel
  have sizes : ∀ e ∈ ((Call.commitBlank 3 "b").run strayed emptied).2.nodes,
      0 ≤ e.2.bounds.width ∧ 0 ≤ e.2.bounds.height := by decide +kernel
  have after := always _ reached _ nodup sizes (by decide +kernel) 3 ⟨10, 55⟩
    [.stop ⟨⟨110, 55⟩, true, 0⟩] 1 ⟨100, 0⟩ (by decide +kernel)
  revert after
  decide +kernel

end Canvas

end Patchbay
