import Patchbay.Proofs.Given
import Patchbay.Proofs.Ongoing
import Patchbay.Proofs.Recast
import Patchbay.Proofs.Waiting

/-!
# Moves and sizes

A move puts boxes where their homes are, off by the way of the mouse, and gives them the sizes that
they have there. Homes are noted when a move begins, for the boxes that are selected then. So sizes
are safe as long as the boxes that are selected later are of the sizes of their homes, and nothing but
a box that joins the selection or a pass over the document can bring in one that is not.
-/

namespace Patchbay

open Keyed (keys)

def Rect.size (r : Rect) : Int × Int := (r.width, r.height)

/-- The box is of the size that it has at home. -/
def Box.Fitted (b : Box) : Prop := b.home.size = b.bounds.size

namespace Scene

variable {s t u : Scene} {ks : List Nat} {k : Nat} {f : Box → Box}

def sizes (s : Scene) : Keyed (Int × Int) := s.boxes.map fun e => (e.1, e.2.bounds.size)

def Fitted (s : Scene) (ks : List Nat) : Prop := ∀ e ∈ s.boxes, e.1 ∈ ks → e.2.Fitted

/-- No box is new, and each has the home and the size that it had. -/
def KeepsHomes (s t : Scene) : Prop :=
  ∀ k b, (k, b) ∈ t.boxes → ∃ a, (k, a) ∈ s.boxes ∧ b.home = a.home ∧ b.bounds.size = a.bounds.size

theorem sizes_congr (boxes : t.boxes = s.boxes) : t.sizes = s.sizes := by
  rw [sizes, boxes, sizes]

theorem sizes_updateBoxes_iff (f : Box → Box) (size : ∀ b, (f b).bounds.size = b.home.size) :
    (s.updateBoxes ks f).sizes = s.sizes ↔ s.Fitted ks := by
  simp only [sizes, updateBoxes, boxes_mapBoxes, Keyed.mapValues, List.map_map, List.map_inj_left,
    Function.comp, Prod.mk.injEq, true_and, Fitted]
  refine forall_congr' fun e => imp_congr_right fun _ => ?_
  by_cases here : e.1 ∈ ks
  · simp [here, size, Box.Fitted]
  · simp [here]

theorem fitted_updateBoxes (s : Scene) (put : ∀ b, (f b).Fitted) : (s.updateBoxes ks f).Fitted ks := by
  rintro ⟨k, b⟩ mem chosen
  rw [updateBoxes, boxes_mapBoxes] at mem
  obtain ⟨a, -, made⟩ := Keyed.mem_mapValues.1 mem
  rw [made, if_pos (List.contains_iff_mem.2 chosen)]
  exact put a

theorem KeepsHomes.refl (s : Scene) : KeepsHomes s s := fun _ b mem => ⟨b, mem, rfl, rfl⟩

theorem KeepsHomes.of_boxes (boxes : t.boxes = s.boxes) : KeepsHomes s t :=
  fun _ b mem => ⟨b, boxes ▸ mem, rfl, rfl⟩

theorem KeepsHomes.trans (first : KeepsHomes s t) (second : KeepsHomes t u) : KeepsHomes s u := by
  intro k b mem
  obtain ⟨a, mem', home, size⟩ := second k b mem
  obtain ⟨a', mem'', home', size'⟩ := first k a mem'
  exact ⟨a', mem'', home.trans home', size.trans size'⟩

theorem keepsHomes_mapValues {f : Nat → Box → Box} (boxes : t.boxes = Keyed.mapValues s.boxes f)
    (same : ∀ k b, (f k b).home = b.home ∧ (f k b).bounds.size = b.bounds.size) : KeepsHomes s t := by
  intro k b mem
  obtain ⟨a, there, made⟩ := Keyed.mem_mapValues.1 (boxes ▸ mem)
  obtain rfl : b = f k a := made
  exact ⟨a, there, same k a⟩

theorem keepsHomes_updateBox {f : Box → Box}
    (same : ∀ b, (f b).home = b.home ∧ (f b).bounds.size = b.bounds.size) :
    KeepsHomes s (s.updateBox k f) := by
  intro j b mem
  rw [boxes_updateBox] at mem
  rcases Keyed.of_mem_update mem with ⟨there, -⟩ | ⟨a, there, made⟩
  · exact ⟨b, there, rfl, rfl⟩
  · obtain ⟨rfl, rfl⟩ := Prod.mk.inj made
    exact ⟨a, there, same a⟩

theorem keepsHomes_updateJack (s : Scene) (ref : JackRef) (f : Jack → Jack) :
    KeepsHomes s (s.updateJack ref f) :=
  keepsHomes_updateBox fun b => by
    rw [b.mapJack_eq]
    exact ⟨rfl, rfl⟩

theorem keepsHomes_foldl_removeBox (s : Scene) (ks : List Nat) :
    KeepsHomes s (ks.foldl removeBox s) := by
  intro k b mem
  rw [boxes_foldl_removeBox] at mem
  exact ⟨b, (List.mem_filter.1 mem).1, rfl, rfl⟩

theorem KeepsHomes.fitted {js : List Nat} (keeps : KeepsHomes s t) (fitted : s.Fitted ks)
    (fewer : js ⊆ ks) : t.Fitted js := by
  rintro ⟨k, b⟩ mem there
  obtain ⟨a, mem, home, size⟩ := keeps k b mem
  rw [Box.Fitted, home, size]
  exact fitted (k, a) mem (fewer there)

end Scene

namespace Canvas

open Drag (Kind)
open Scene (KeepsHomes)

variable {δ : Type} [Document δ] {c : Canvas} {d : δ} {call : Call}

/-- The calls that put boxes back to their homes, off by the way of a move. -/
def Call.Carries : Call → Prop
  | dragMove _ _ _ | endMove _ | cancelDrag => True
  | _ => False

theorem sizes_showOffset_iff (c : Canvas) (offset : Point) :
    (c.showOffset offset).scene.sizes = c.scene.sizes ↔ c.scene.Fitted c.selection.boxes :=
  Scene.sizes_updateBoxes_iff (fun b => { b with bounds := b.home.shifted offset }) fun _ => rfl

theorem sizes_cancelDrag_iff (moving : c.drag.kind? = some .boxes) :
    c.cancelDrag.scene.sizes = c.scene.sizes ↔ c.scene.Fitted c.selection.boxes := by
  cases drag : c.drag with
  | boxes grabbed start offset =>
    simp only [cancelDrag, drag]
    exact Scene.sizes_updateBoxes_iff (fun b => { b with bounds := b.home }) fun _ => rfl
  | _ => simp [drag, Drag.kind?] at moving

theorem sizes_endMove (moving : c.drag.kind? = some .boxes) (d : δ) (now : Nat) :
    ∃ offset, (c.endMove d now).1.scene.sizes = (c.showOffset offset).scene.sizes := by
  cases drag : c.drag with
  | boxes grabbed start offset =>
    refine ⟨c.snapper.settle offset, ?_⟩
    simp only [endMove, drag]
    repeat' split
    all_goals first | rfl | exact Scene.sizes_congr (recabled_routeBlocked ..).boxes
  | _ => simp [drag, Drag.kind?] at moving

theorem sizes_dragMove (c : Canvas) (position : Point) (bypass : Bool) (now : Nat) :
    (c.dragMove position bypass now).1 = c ∨ ∃ offset,
      (c.dragMove position bypass now).1.scene.boxes = (c.showOffset offset).scene.boxes := by
  unfold dragMove
  split
  · split
    · exact Or.inl rfl
    · exact Or.inr ⟨_, rfl⟩
  · exact Or.inl rfl

/-- A move leaves every size exactly if the boxes that it carries are of the sizes of their homes. -/
theorem sizes_carries_iff (moving : c.drag.kind? = some .boxes) (d : δ) :
    (∀ call : Call, call.Carries → (call.run c d).1.scene.sizes = c.scene.sizes) ↔
      c.scene.Fitted c.selection.boxes := by
  refine ⟨fun kept => ?_, fun fitted call carries => ?_⟩
  · exact (sizes_cancelDrag_iff moving).1 (kept .cancelDrag trivial)
  · have shown (offset : Point) := (sizes_showOffset_iff c offset).2 fitted
    cases call with
    | dragMove position bypass now =>
      rcases sizes_dragMove c position bypass now with same | ⟨offset, boxes⟩
      · exact congrArg (·.scene.sizes) same
      · exact (Scene.sizes_congr boxes).trans (shown offset)
    | endMove now =>
      obtain ⟨offset, sizes⟩ := sizes_endMove moving d now
      exact sizes.trans (shown offset)
    | cancelDrag => exact (sizes_cancelDrag_iff moving).2 fitted
    | _ => exact absurd carries id

/-- If a move goes on, the boxes that it carries are of the sizes of their homes. -/
def SizesSafe (c : Canvas) : Prop :=
  c.drag.kind? = some .boxes → c.scene.Fitted c.selection.boxes

/-- A call that lets a move carry a box which is not of the size of its home: it adds such a box to
the selection, or is a pass that gives a selected box another size. -/
inductive Unsizes (c : Canvas) (d : δ) : Call → Prop
  | chosen {key : Nat} {toggle : Bool} {b : Box} (moving : c.drag.kind? = some .boxes)
      (unlocked : c.locked = false) (fresh : key ∉ c.selection.boxes)
      (there : (key, b) ∈ c.scene.boxes) (misfit : ¬b.Fitted) : Unsizes c d (.selectBox key toggle)
  | placed {position : Point} (moving : c.drag.kind? = some .boxes) (unlocked : c.locked = false) :
      Unsizes c d (.placeBlank position)
  | resized {k : Nat} {a b : Box} (moving : (c.sync d).1.drag.kind? = some .boxes)
      (held : k ∈ c.selection.boxes) (before : (k, a) ∈ c.scene.boxes)
      (after : (k, b) ∈ (c.sync d).1.scene.boxes) (other : b.bounds.size ≠ a.bounds.size) :
      Unsizes c d .sync

theorem keepsHomes_markSelection (c : Canvas) : KeepsHomes c.scene c.markSelection.scene :=
  Scene.keepsHomes_mapValues (c.scene.boxes_mapBoxes fun k b =>
    { b with selected := c.selection.boxes.contains k }) fun _ _ => ⟨rfl, rfl⟩

theorem keepsHomes_clearTarget (c : Canvas) : KeepsHomes c.scene c.clearTarget.scene := by
  unfold clearTarget
  split
  · exact .refl _
  · exact Scene.keepsHomes_updateJack _ _ _

theorem keepsHomes_dropLostDrag (c : Canvas) : KeepsHomes c.scene c.dropLostDrag.scene := by
  unfold dropLostDrag
  split
  · exact keepsHomes_clearTarget _
  · exact .refl _

theorem keepsHomes_placeBoxes (s : Scene) (moves : Keyed (Nat × Point)) :
    KeepsHomes s (moves.foldl placeBox s) := by
  induction moves generalizing s with
  | nil => exact .refl s
  | cons m moves ih =>
    have first : KeepsHomes s (placeBox s m) := Scene.keepsHomes_updateBox fun b => ⟨rfl, rfl⟩
    exact first.trans (ih _)

theorem keepsHomes_cancelBlank (c : Canvas) (key : Nat) :
    KeepsHomes c.scene (c.cancelBlank key).1.scene := by
  unfold cancelBlank
  split
  · exact Scene.keepsHomes_foldl_removeBox c.scene [key]
  · exact .refl _

theorem home_sync (regular : c.scene.Regular) (d : δ) {k : Nat} {b : Box}
    (mem : (k, b) ∈ (c.sync d).1.scene.boxes) (old : k < c.scene.nextBox) :
    ∃ a, (k, a) ∈ c.scene.boxes ∧ b.home = a.home := by
  have marks : KeepsHomes (c.scene.reconcile
      (Document.listing (Document.deliver (Document.deliver d)))).1 (c.sync d).1.scene :=
    (keepsHomes_markSelection _).trans (keepsHomes_dropLostDrag _)
  obtain ⟨b', mem', home, -⟩ := marks k b mem
  obtain ⟨a, there, follows⟩ := (regular.follows_reconcile _).2 k b' mem' old
  refine ⟨a, there, home.trans ?_⟩
  rcases follows with rfl | ⟨_, _, _, _, _, rfl⟩ <;> rfl

theorem exists_mark (sel : Selection) {s : Scene} {k : Nat} {b : Box} (mem : (k, b) ∈ s.boxes) :
    ∃ b', (k, b') ∈ (sel.mark s).boxes ∧ (b'.Fitted ↔ b.Fitted) := by
  refine ⟨{ b with selected := sel.boxes.contains k }, ?_, Iff.rfl⟩
  have boxes := s.boxes_mapBoxes fun k b => { b with selected := sel.boxes.contains k }
  exact boxes ▸ List.mem_map_of_mem mem

theorem Unsizes.not_sizesSafe (unsizes : Unsizes c d call) (reached : Reached c)
    (safe : SizesSafe c) : ¬SizesSafe (call.run c d).1 := by
  intro safe'
  have regular := reached.regular
  cases unsizes with
  | @chosen key toggle b moving unlocked fresh there misfit =>
    have found : c.scene.box? key = some b := Scene.box?_of_mem there
    simp only [SizesSafe, Call.run, selectBox, unlocked, found, Option.isNone_some, Bool.or_self,
      Bool.false_eq_true, if_false] at safe'
    obtain ⟨b', mem, same⟩ := exists_mark
      (if toggle then c.selection.toggleBox key else c.selection.onlyBox key) there
    refine misfit (same.1 (safe' moving _ mem ?_))
    cases toggle with
    | false => exact List.mem_singleton_self key
    | true =>
      have last : Selection.toggle key c.selection.boxes = c.selection.boxes ++ [key] :=
        if_neg (by simpa using fresh)
      change key ∈ Selection.toggle key c.selection.boxes
      rw [last]
      exact List.mem_append_right _ (List.mem_singleton_self key)
  | @placed position moving unlocked =>
    simp only [SizesSafe, Call.run, placeBlank, unlocked, Bool.false_eq_true, if_false] at safe'
    have added : (c.scene.nextBox, Box.blank position) ∈
        (c.scene.addBox (Box.blank position)).2.boxes := by
      rw [Scene.boxes_addBox regular.boxOrder]
      exact List.mem_append_right _ (List.mem_singleton_self _)
    obtain ⟨b', mem, same⟩ := exists_mark (c.selection.onlyBox c.scene.nextBox) added
    have fitted := same.1 (safe' moving _ mem (List.mem_singleton_self _))
    simp [Box.Fitted, Box.blank, Rect.size, Rect.empty, Rect.expanded, margin] at fitted
  | @resized k a b moving held before after other =>
    have was : c.drag.kind? = some .boxes := by
      rcases drag_sync c d with gone | same
      · rw [gone] at moving
        exact absurd moving (by simp [Drag.kind?])
      · rw [← same]
        exact moving
    obtain ⟨a', there, home⟩ := home_sync regular d after (reached.given k held)
    obtain rfl : a' = a := Keyed.eq_of_mem regular.boxes there before
    have chosen := mem_selection_sync held (Keyed.mem_keys_of_mem after)
    have fitted : b.home.size = b.bounds.size := safe' moving (k, b) after chosen
    have fitted' : a'.home.size = a'.bounds.size := safe was (k, a') before held
    exact other (by rw [← fitted, home, fitted'])

theorem fitted_showOffset (c : Canvas) (offset : Point) :
    (c.showOffset offset).scene.Fitted (c.showOffset offset).selection.boxes :=
  c.scene.fitted_updateBoxes (f := fun b => { b with bounds := b.home.shifted offset }) fun _ => rfl

theorem fitted_sync (reached : Reached c) (fitted : c.scene.Fitted c.selection.boxes)
    (moving : (c.sync d).1.drag.kind? = some .boxes) (safe : ¬Unsizes c d .sync) :
    (c.sync d).1.scene.Fitted (c.sync d).1.selection.boxes := by
  rintro ⟨k, b⟩ mem chosen
  have held : k ∈ c.selection.boxes := (boxes_sync c d).subset chosen
  obtain ⟨a, there, home⟩ := home_sync reached.regular d mem (reached.given k held)
  have same : b.bounds.size = a.bounds.size := by
    by_contra other
    exact safe (.resized moving held there mem other)
  rw [Box.Fitted, home, same]
  exact fitted (k, a) there held

theorem fitted_selectBox (fitted : c.scene.Fitted c.selection.boxes)
    (moving : c.drag.kind? = some .boxes) {key : Nat} {toggle : Bool}
    (safe : ¬Unsizes c d (.selectBox key toggle)) :
    (c.selectBox key toggle).scene.Fitted (c.selectBox key toggle).selection.boxes := by
  unfold selectBox
  split
  · exact fitted
  · next free =>
    rintro ⟨k, b⟩ mem chosen
    obtain ⟨a, there, home, size⟩ := keepsHomes_markSelection _ k b mem
    have former : a.Fitted := by
      by_cases old : k ∈ c.selection.boxes
      · exact fitted (k, a) there old
      · by_contra misfit
        have unlocked : c.locked = false := by
          simp only [Bool.or_eq_true, not_or, Bool.not_eq_true] at free
          exact free.1
        have same : k = key := by
          cases toggle with
          | false => exact List.mem_singleton.1 chosen
          | true =>
            have chosen : k ∈ Selection.toggle key c.selection.boxes := chosen
            unfold Selection.toggle at chosen
            split at chosen
            · exact absurd (List.mem_of_mem_erase chosen) old
            · exact List.mem_singleton.1 ((List.mem_append.1 chosen).resolve_left old)
        subst same
        exact safe (.chosen moving unlocked old there misfit)
    rw [Box.Fitted, home, size]
    exact former

theorem fitted_beginMove (free : c.drag = .none) (grabbed : Nat) (position : Point)
    (moving : (c.beginMove grabbed position).1.drag.kind? = some .boxes) :
    (c.beginMove grabbed position).1.scene.Fitted
      (c.beginMove grabbed position).1.selection.boxes := by
  unfold beginMove at moving ⊢
  split
  · next refused =>
    rw [if_pos refused, free] at moving
    exact absurd moving (by simp [Drag.kind?])
  · exact Scene.fitted_updateBoxes _ fun _ => rfl

theorem fitted_run (reached : Reached c) (fitted : c.scene.Fitted c.selection.boxes)
    (moving : c.drag.kind? = some .boxes) (goesOn : (call.run c d).1.drag.kind? = some .boxes)
    (safe : ¬Unsizes c d call) :
    (call.run c d).1.scene.Fitted (call.run c d).1.selection.boxes := by
  have ended {e : Drag} (none : e = .none) (goesOn : e.kind? = some .boxes) : False := by
    rw [none] at goesOn
    exact absurd goesOn (by simp [Drag.kind?])
  have busy : c.isBusy = true := by
    have dragged : c.drag ≠ .none := fun none => ended none moving
    simp [isBusy, dragged]
  have fewer {t : Canvas} (keeps : KeepsHomes c.scene t.scene)
      (fewer : t.selection.boxes ⊆ c.selection.boxes) : t.scene.Fitted t.selection.boxes :=
    keeps.fitted fitted fewer
  have same {t : Canvas} (boxes : t.scene.boxes = c.scene.boxes)
      (selection : t.selection = c.selection) : t.scene.Fitted t.selection.boxes :=
    fewer (.of_boxes boxes) (selection ▸ fun _ mem => mem)
  have led (recables : call.Recables) :
      (call.run c d).1.scene.Fitted (call.run c d).1.selection.boxes :=
    same (Call.recabled recables c d).boxes (Call.recabled recables c d).selection
  have astray {kind : Kind} (meant : call.kind? = some kind) (other : kind ≠ .boxes) :
      (call.run c d).1.scene.Fitted (call.run c d).1.selection.boxes := by
    have astray : call.Astray c :=
      ⟨kind, meant, fun going => other (Option.some.inj (going.symm.trans moving))⟩
    rw [astray.run_eq]
    exact same rfl rfl
  cases call with
  | setSettings | setViewport | setGridOrigin | requestSync => exact fitted
  | setLocked locked =>
    cases locked with
    | true => exact (ended (drag_cancelDrag c) goesOn).elim
    | false => exact fitted
  | sync => exact fitted_sync reached fitted goesOn safe
  | idle =>
    have waits : (!c.syncPending || c.drag.movesBoxes) = true := by
      cases drag : c.drag <;> simp_all [Drag.kind?, Drag.movesBoxes]
    simp only [Call.run, idle, waits, if_true]
    exact fitted
  | selectBox key toggle => exact fitted_selectBox fitted moving safe
  | selectCable key toggle =>
    simp only [Call.run, selectCable]
    split
    · exact fitted
    · refine fewer (keepsHomes_markSelection _) ?_
      cases toggle with
      | true => exact fun _ mem => mem
      | false => exact List.nil_subset _
  | deselectAll => exact fewer (keepsHomes_markSelection _) (List.nil_subset _)
  | beginLasso position => simpa [Call.run, beginLasso, busy] using fitted
  | beginMove grabbed position => simpa [Call.run, beginMove, busy] using fitted
  | beginResize key edges position => simpa [Call.run, beginResize, busy] using fitted
  | beginConnection jack multi => simpa [Call.run, beginConnection, busy] using fitted
  | beginSegment key position => simpa [Call.run, beginSegment, busy] using fitted
  | updateLasso | endLasso => exact astray rfl (by decide)
  | dragResize | endResize => exact astray rfl (by decide)
  | dragConnection | endConnection | cancelConnection => exact astray rfl (by decide)
  | dragSegment | endSegment | cancelSegment => exact astray rfl (by decide)
  | dragMove position bypass now =>
    simp only [Call.run, dragMove]
    split
    · split
      · exact fitted
      · exact fitted_showOffset _ _
    · exact fitted
  | endMove now => exact (ended (drag_endMove c d now) goesOn).elim
  | deleteSelection =>
    simp only [Call.run, deleteSelection]
    split
    · exact fitted
    · split
      · split <;> exact fitted
      · refine fewer ?_ (List.nil_subset _)
        refine KeepsHomes.trans ?_ (keepsHomes_markSelection _)
        split <;> exact Scene.keepsHomes_foldl_removeBox _ _
  | alignSelection a =>
    simp only [Call.run, alignSelection]
    split
    · exact fitted
    · split
      · exact fitted
      · split
        · exact fitted
        · exact fewer (keepsHomes_placeBoxes c.scene (c.alignMoves a)) fun _ mem => mem
  | cancelDrag => exact (ended (drag_cancelDrag c) goesOn).elim
  | routeCable | straightenCable | reanchorCable | pushToken | tick | flushTokens =>
    exact led trivial
  | placeBlank position =>
    simp only [Call.run, placeBlank]
    split
    · exact fitted
    · next unlocked => exact absurd (.placed moving (by simpa using unlocked)) safe
  | commitBlank key text =>
    simp only [Call.run, commitBlank]
    split
    · exact fitted
    · split
      · exact fitted
      · split
        · exact fewer (keepsHomes_cancelBlank c key) (boxes_cancelBlank c key).subset
        · split
          · exact fitted
          · exact fewer (Scene.keepsHomes_updateBox fun _ => ⟨rfl, rfl⟩) fun _ mem => mem
  | cancelBlank key => exact fewer (keepsHomes_cancelBlank c key) (boxes_cancelBlank c key).subset

theorem sizesSafe_run_iff (reached : Reached c) (safe : SizesSafe c) (call : Call) (d : δ) :
    SizesSafe (call.run c d).1 ↔ ¬Unsizes c d call := by
  refine ⟨fun safe' unsizes => unsizes.not_sizesSafe reached safe safe', fun none goesOn => ?_⟩
  rcases kind?_run call c d with same | gone | ⟨free, begun⟩
  · have moving : c.drag.kind? = some .boxes := same ▸ goesOn
    exact fitted_run reached (safe moving) moving goesOn none
  · rw [gone] at goesOn
    exact absurd goesOn (by simp)
  · rw [goesOn] at begun
    cases call with
    | beginMove grabbed position => exact fitted_beginMove free grabbed position goesOn
    | _ => simp [Call.begins?] at begun

/-- A canvas that is used with one document after the other. -/
def used (settings : CanvasSettings) (steps : List (Call × δ)) : Canvas :=
  steps.foldl (fun c step => (step.1.run c step.2).1) (ofSettings settings)

theorem used_append (settings : CanvasSettings) (steps : List (Call × δ)) (call : Call) (d : δ) :
    used settings (steps ++ [(call, d)]) = (call.run (used settings steps) d).1 := by
  simp [used, List.foldl_append]

theorem reached_used (settings : CanvasSettings) (steps : List (Call × δ)) :
    Reached (used settings steps) := by
  refine List.foldlRecOn (motive := Reached) _ _ (.ofSettings settings) fun c reached step _ => ?_
  exact reached.call step.2 step.1

/-- Whatever is done with a canvas, and whatever the document is at each call: moves leave every size,
at each step and at their ends, exactly if no call brings in a box of another size than at home. -/
theorem moves_keep_sizes (settings : CanvasSettings) (steps : List (Call × δ)) :
    (∀ n ≤ steps.length, (used settings (steps.take n)).drag.kind? = some .boxes →
      ∀ (call : Call) (d : δ), call.Carries →
        (call.run (used settings (steps.take n)) d).1.scene.sizes
          = (used settings (steps.take n)).scene.sizes) ↔
      ∀ n call d, steps[n]? = some (call, d) → ¬Unsizes (used settings (steps.take n)) d call := by
  have step {n : Nat} {call : Call} {d : δ} (there : steps[n]? = some (call, d)) :
      used settings (steps.take (n + 1)) = (call.run (used settings (steps.take n)) d).1 := by
    rw [List.take_add_one, there, Option.toList_some, used_append]
  have reached (n : Nat) : Reached (used settings (steps.take n)) := reached_used settings _
  constructor
  · intro kept n call d there
    obtain ⟨low, -⟩ := List.getElem?_eq_some_iff.1 there
    have safe (m : Nat) (le : m ≤ steps.length) : SizesSafe (used settings (steps.take m)) :=
      fun moving => (sizes_carries_iff moving d).1 fun call => kept m le moving call d
    refine (sizesSafe_run_iff (reached n) (safe n (Nat.le_of_lt low)) call d).1 ?_
    rw [← step there]
    exact safe (n + 1) low
  · intro none n le moving call d
    suffices safe : SizesSafe (used settings (steps.take n)) from
      (sizes_carries_iff moving d).2 (safe moving) call
    clear moving
    induction n with
    | zero => exact fun moving => absurd moving (by simp [used, ofSettings, Drag.kind?])
    | succ n ih =>
      have low : n < steps.length := le
      have there : steps[n]? = some (steps[n].1, steps[n].2) := List.getElem?_eq_getElem low
      rw [step there]
      exact (sizesSafe_run_iff (reached n) (ih (Nat.le_of_lt low)) _ _).2 (none n _ _ there)

def twoNodes (width height : Int) : Patch where
  nodes := [(1, ⟨"osc~", ⟨0, 0, width, height⟩, [], [true]⟩),
    (2, ⟨"dac~", ⟨0, 100, 40, 20⟩, [true], []⟩)]
  next := 3

/-- A box is taken hold of, and something comes in between: the other box is selected as well, a new
box is placed, or a pass finds that the node has grown. -/
def takenHold (between : Call × Patch) : List (Call × Patch) :=
  [(.sync, twoNodes 40 20), (.beginMove 1 ⟨10, 10⟩, twoNodes 40 20), between]

theorem moves_keep_sizes_selected :
    ∃ n call p, (takenHold (.selectBox 2 true, twoNodes 40 20))[n]? = some (call, p) ∧
      Unsizes (used {} ((takenHold (.selectBox 2 true, twoNodes 40 20)).take n)) p call := by
  by_contra none
  have kept := (moves_keep_sizes {} (takenHold (.selectBox 2 true, twoNodes 40 20))).2
    (fun n call p there unsizes => none ⟨n, call, p, there, unsizes⟩) 3 (by decide)
    (by decide +kernel) (.dragMove ⟨70, 10⟩ true 0) (twoNodes 40 20) trivial
  revert kept
  decide +kernel

/-- A move gives a box that was selected on the way no size at all, and so one that was placed on the
way; and a box that a pass has resized goes back to its old size. -/
theorem moves_resize :
    (¬ ∀ c, Reached c → c.drag.kind? = some .boxes → ∀ (call : Call) (p : Patch), call.Carries →
      (call.run c p).1.scene.sizes = c.scene.sizes) ∧
    (let c := used {} (takenHold (.selectBox 2 true, twoNodes 40 20));
      c.scene.sizes = [(1, 50, 30), (2, 50, 30)] ∧
        (c.dragMove ⟨70, 10⟩ true 0).1.scene.sizes = [(1, 50, 30), (2, 0, 0)]) ∧
    (let c := used {} (takenHold (.placeBlank ⟨200, 200⟩, twoNodes 40 20));
      c.scene.sizes = [(1, 50, 30), (2, 50, 30), (3, 70, 30)] ∧
        (c.endMove (twoNodes 40 20) 0).1.scene.sizes = [(1, 50, 30), (2, 50, 30), (3, 0, 0)]) ∧
    (let c := used {} (takenHold (.sync, twoNodes 80 60));
      c.scene.sizes = [(1, 90, 70), (2, 50, 30)] ∧
        c.cancelDrag.scene.sizes = [(1, 50, 30), (2, 50, 30)]) := by
  refine ⟨fun always => ?_, by decide +kernel, by decide +kernel, by decide +kernel⟩
  have kept := always _ (reached_used {} (takenHold (.selectBox 2 true, twoNodes 40 20)))
    (by decide +kernel) (.dragMove ⟨70, 10⟩ true 0) (twoNodes 40 20) trivial
  revert kept
  decide +kernel

end Canvas

end Patchbay
