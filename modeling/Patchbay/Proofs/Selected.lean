import Patchbay.Proofs.Chosen
import Patchbay.Proofs.Joined
import Patchbay.Proofs.Marks

/-!
# What is selected is marked

A selection is kept twice: as lists of keys, and as marks on the boxes and cables of the scene. A call
that chooses settles the keys first and marks the scene by them; all other calls leave the keys and the
marks. So the two agree, and no key stays selected once its box or cable is gone.
-/

namespace Patchbay

open Keyed (keys)

theorem Arena.Exact.mem_keys_iff {α : Type} {a : Arena α} (exact : a.Exact) {k : Nat} :
    k ∈ keys a.entries ↔ (a.get? k).isSome = true := by
  rw [exact.keys_eq, exact.live]

namespace Scene

def flags (s : Scene) : Arena Bool × Arena Bool :=
  (s.boxArena.map Box.selected, s.cableArena.map Cable.selected)

variable {s t : Scene}

theorem keys_of_flags (same : t.flags = s.flags) :
    keys t.boxes = keys s.boxes ∧ keys t.cables = keys s.cables := by
  have through {α : Type} (h : α → Bool) (a : Arena α) : keys a.entries = keys (a.map h).entries := by
    rw [Arena.entries_map, keys, keys, List.map_map]
    rfl
  obtain ⟨boxes, cables⟩ := Prod.mk.inj same
  exact ⟨(through _ t.boxArena).trans (boxes ▸ (through _ s.boxArena).symm),
    (through _ t.cableArena).trans (cables ▸ (through _ s.cableArena).symm)⟩

theorem Bears.of_flags {sel : Selection} (bears : s.Bears sel) (same : t.flags = s.flags) :
    t.Bears sel := by
  obtain ⟨boxes, cables⟩ := Prod.mk.inj same
  refine ⟨fun k b found => ?_, fun k x found => ?_⟩
  · obtain ⟨a, there, mark⟩ := Arena.of_map_eq boxes found
    exact mark ▸ bears.boxes k a there
  · obtain ⟨y, there, mark⟩ := Arena.of_map_eq cables found
    exact mark ▸ bears.cables k y there

theorem Bears.congr {sel other : Selection} (bears : s.Bears sel) (boxes : other.boxes = sel.boxes)
    (cables : other.cables = sel.cables) : s.Bears other where
  boxes k b found := boxes ▸ bears.boxes k b found
  cables k x found := cables ▸ bears.cables k x found

theorem flags_mapBoxes (s : Scene) {f : Nat → Box → Box}
    (same : ∀ k b, (f k b).selected = b.selected) : (s.mapBoxes f).flags = s.flags := by
  simp only [flags, mapBoxes, Arena.map_mapValues Box.selected same]

theorem flags_mapCables (s : Scene) {f : Nat → Cable → Cable}
    (same : ∀ k x, (f k x).selected = x.selected) : (s.mapCables f).flags = s.flags := by
  simp only [flags, mapCables, Arena.map_mapValues Cable.selected same]

theorem flags_updateBox (s : Scene) (k : Nat) {f : Box → Box}
    (same : ∀ b, (f b).selected = b.selected) : (s.updateBox k f).flags = s.flags := by
  simp only [flags, updateBox, Arena.map_update Box.selected same]

theorem flags_updateBoxes (s : Scene) (ks : List Nat) {f : Box → Box}
    (same : ∀ b, (f b).selected = b.selected) : (s.updateBoxes ks f).flags = s.flags := by
  refine flags_mapBoxes s fun k b => ?_
  split
  · exact same b
  · rfl

theorem flags_updateCable (s : Scene) (k : Nat) {f : Cable → Cable}
    (same : ∀ x, (f x).selected = x.selected) : (s.updateCable k f).flags = s.flags := by
  simp only [flags, updateCable, Arena.map_update Cable.selected same]

theorem flags_updateJack (s : Scene) (ref : JackRef) (f : Jack → Jack) :
    (s.updateJack ref f).flags = s.flags :=
  flags_updateBox s ref.box fun b => by rw [Box.mapJack_eq]

end Scene

namespace Selection

/-- No key is selected twice, and each is the key of something in the scene. -/
structure Within (sel : Selection) (s : Scene) : Prop where
  boxes : sel.boxes.Nodup
  cables : sel.cables.Nodup
  boxes_mem : sel.boxes ⊆ keys s.boxes
  cables_mem : sel.cables ⊆ keys s.cables

variable {sel other : Selection} {s t : Scene} {key : Nat}

theorem toggle_subset {ks all : List Nat} (fewer : ks ⊆ all) (there : key ∈ all) :
    toggle key ks ⊆ all := by
  unfold toggle
  split
  · exact List.Subset.trans List.erase_subset fewer
  · exact List.append_subset.2 ⟨fewer, List.cons_subset.2 ⟨there, List.nil_subset _⟩⟩

namespace Within

theorem congr (within : sel.Within s) (boxes : other.boxes = sel.boxes)
    (cables : other.cables = sel.cables) (flags : t.flags = s.flags) : other.Within t := by
  obtain ⟨hb, hc⟩ := Scene.keys_of_flags flags
  exact ⟨boxes ▸ within.boxes, cables ▸ within.cables, boxes ▸ hb ▸ within.boxes_mem,
    cables ▸ hc ▸ within.cables_mem⟩

theorem empty (s : Scene) (lasso : Option Lasso) : Within { lasso := lasso } s :=
  ⟨.nil, .nil, List.nil_subset _, List.nil_subset _⟩

theorem onlyBox (sel : Selection) (there : key ∈ keys s.boxes) : (sel.onlyBox key).Within s :=
  ⟨List.nodup_singleton key, .nil, List.cons_subset.2 ⟨there, List.nil_subset _⟩, List.nil_subset _⟩

theorem onlyCable (sel : Selection) (there : key ∈ keys s.cables) : (sel.onlyCable key).Within s :=
  ⟨.nil, List.nodup_singleton key, List.nil_subset _, List.cons_subset.2 ⟨there, List.nil_subset _⟩⟩

theorem toggleBox (within : sel.Within s) (there : key ∈ keys s.boxes) :
    (sel.toggleBox key).Within s :=
  ⟨nodup_toggle within.boxes key, within.cables, toggle_subset within.boxes_mem there,
    within.cables_mem⟩

theorem toggleCable (within : sel.Within s) (there : key ∈ keys s.cables) :
    (sel.toggleCable key).Within s :=
  ⟨within.boxes, nodup_toggle within.cables key, within.boxes_mem,
    toggle_subset within.cables_mem there⟩

theorem closeLasso (within : sel.Within s) (regular : s.Regular) :
    (sel.closeLasso s).1.Within s := by
  have kept : Within { sel with lasso := none } s := within.congr rfl rfl rfl
  unfold Selection.closeLasso
  split
  · exact within
  · next l _ =>
    dsimp only
    split
    · have boxes : (keys (s.boxes.filter fun e => e.2.bounds.intersects l.rect)).Sublist
          (keys s.boxes) := List.filter_sublist.map _
      have cables : (keys (s.cables.filter fun x => meets s l.rect x.2)).Sublist (keys s.cables) :=
        List.filter_sublist.map _
      exact ⟨regular.boxes.sublist boxes, regular.cables.sublist cables, boxes.subset, cables.subset⟩
    · exact kept

theorem retain (within : sel.Within s) (regular : t.Regular) : (sel.retain t).Within t where
  boxes := within.boxes.sublist List.filter_sublist
  cables := within.cables.sublist List.filter_sublist
  boxes_mem _ hk := regular.boxOrder.mem_keys_iff.2 (List.mem_filter.1 hk).2
  cables_mem _ hk := regular.cableOrder.mem_keys_iff.2 (List.mem_filter.1 hk).2

theorem removeBox (within : sel.Within s) (key : Nat) :
    (sel.removeBox key).Within (s.removeBox key) where
  boxes := within.boxes.sublist List.filter_sublist
  cables := within.cables
  boxes_mem k hk := by
    obtain ⟨chosen, other⟩ := List.mem_filter.1 hk
    rw [Scene.boxes_removeBox]
    exact Keyed.mem_keys_remove.2 ⟨within.boxes_mem chosen, by simpa using other⟩
  cables_mem := Scene.cables_congr (s.cableArena_removeBox key) ▸ within.cables_mem

end Within

theorem bears_removeBox (bears : s.Bears sel) (key : Nat) :
    (s.removeBox key).Bears (sel.removeBox key) where
  boxes k b found := by
    rw [Scene.box?, Scene.boxArena_removeBox, Arena.get?_remove] at found
    split at found
    · exact absurd found (by simp)
    · next other =>
      have same : (sel.removeBox key).boxes.contains k = sel.boxes.contains k := by
        rw [Bool.eq_iff_iff, List.contains_iff_mem, List.contains_iff_mem, Selection.removeBox,
          List.mem_filter]
        exact ⟨And.left, fun chosen => ⟨chosen, by simpa using other⟩⟩
      rw [same]
      exact bears.boxes k b found
  cables k x found := by
    rw [Scene.cable?, Scene.cableArena_removeBox] at found
    exact bears.cables k x found

end Selection

namespace Canvas

variable {δ : Type} [Document δ] {c t : Canvas} {d : δ}

/-- The keys that are selected and the marks in the scene say the same. -/
structure Agrees (c : Canvas) : Prop where
  within : c.selection.Within c.scene
  bears : c.scene.Bears c.selection

theorem Agrees.of_flags (agrees : Agrees c) (boxes : t.selection.boxes = c.selection.boxes)
    (cables : t.selection.cables = c.selection.cables) (flags : t.scene.flags = c.scene.flags) :
    Agrees t :=
  ⟨agrees.within.congr boxes cables flags, (agrees.bears.of_flags flags).congr boxes cables⟩

theorem agrees_of_marked {s : Scene} (within : c.selection.Within s)
    (scene : c.scene = c.selection.mark s) : Agrees c where
  within := by
    obtain ⟨hb, hc⟩ : keys c.scene.boxes = keys s.boxes ∧ keys c.scene.cables = keys s.cables := by
      have marked := (Scene.marked_mark c.selection s).recast
      rw [scene, marked.boxes, marked.cables]
      exact ⟨Keyed.keys_mapValues _ _, Keyed.keys_mapValues _ _⟩
    exact ⟨within.boxes, within.cables, hb ▸ within.boxes_mem, hc ▸ within.cables_mem⟩
  bears := by
    rw [scene]
    exact Scene.bears_mark c.selection s

theorem flags_clearTarget (c : Canvas) : c.clearTarget.scene.flags = c.scene.flags := by
  unfold clearTarget
  split
  · rfl
  · exact Scene.flags_updateJack _ _ _

theorem flags_aim (c : Canvas) (target : Option JackRef) :
    (c.aim target).scene.flags = c.scene.flags := by
  unfold aim
  split
  · rfl
  · dsimp only
    split
    · exact flags_clearTarget c
    · split
      · exact (Scene.flags_updateJack _ _ _).trans (flags_clearTarget c)
      · exact flags_clearTarget c

theorem flags_follow (c : Canvas) (moved : List Nat) : (c.follow moved).scene.flags = c.scene.flags :=
  Scene.flags_mapCables c.scene (f := fun _ => followMoved c.scene moved)
    fun _ x => by rw [followMoved_eq]

theorem flags_showOffset (c : Canvas) (offset : Point) :
    (c.showOffset offset).scene.flags = c.scene.flags :=
  (flags_follow _ _).trans (Scene.flags_updateBoxes c.scene c.selection.boxes
    (f := fun b => { b with bounds := b.home.shifted offset }) fun _ => rfl)

theorem flags_pushToken (c : Canvas) (d : δ) (key : Nat) (token : String) (now : Nat) :
    (c.pushToken d key token now).1.scene.flags = c.scene.flags := by
  unfold pushToken
  split
  · rfl
  · exact Scene.flags_updateCable _ _ fun _ => rfl

theorem flags_routeCable (c : Canvas) (d : δ) (key now : Nat) :
    (c.routeCable d key now).1.scene.flags = c.scene.flags := by
  unfold routeCable
  split
  · exact (flags_pushToken ..).trans (Scene.flags_updateCable _ _ fun _ => rfl)
  · rfl

theorem flags_routeBlocked (c : Canvas) (d : δ) (moved : List Nat) (now : Nat) :
    (c.routeBlocked d moved now).1.scene.flags = c.scene.flags :=
  routeBlocked_induction (P := fun state => state.1.scene.flags = c.scene.flags) moved now
    (fun b e key same => (flags_routeCable b e key now).trans same) rfl

theorem flags_markSaved (c : Canvas) : c.markSaved.scene.flags = c.scene.flags :=
  Scene.flags_mapCables c.scene (f := fun _ x => { x with unsaved := false }) fun _ _ => rfl

theorem flags_cancelSegment (c : Canvas) : c.cancelSegment.scene.flags = c.scene.flags := by
  unfold cancelSegment
  split
  · exact Scene.flags_updateCable _ _ fun _ => rfl
  · rfl

theorem flags_dropLostDrag (c : Canvas) : c.dropLostDrag.scene.flags = c.scene.flags := by
  unfold dropLostDrag
  split
  · exact flags_clearTarget _
  · rfl

theorem flags_cancelDrag (c : Canvas) : c.cancelDrag.scene.flags = c.scene.flags := by
  unfold cancelDrag
  split
  · rfl
  · exact (flags_follow _ _).trans (Scene.flags_updateBoxes c.scene c.selection.boxes
      (f := fun b => { b with bounds := b.home }) fun _ => rfl)
  · next key _ _ _ _ =>
    exact (flags_follow _ _).trans (Scene.flags_updateBox c.scene key
      (f := fun b => { b with bounds := b.home }.layoutJacks) fun _ => rfl)
  · exact flags_clearTarget _
  · exact flags_cancelSegment c
  · rfl

theorem flags_placeBoxes (s : Scene) (moves : Keyed (Nat × Point)) :
    (moves.foldl placeBox s).flags = s.flags :=
  List.foldlRecOn (motive := fun t : Scene => t.flags = s.flags) _ _ rfl fun t same m _ =>
    (Scene.flags_updateBox t m.1
      (f := fun b => { b with bounds := b.bounds.withPosition (m.2.2 - ⟨margin, margin⟩) })
      fun _ => rfl).trans same

theorem flags_endMove (c : Canvas) (d : δ) (now : Nat) :
    (c.endMove d now).1.scene.flags = c.scene.flags := by
  unfold endMove
  split
  · dsimp only
    split
    · exact flags_showOffset _ _
    · split
      · exact flags_showOffset _ _
      · split
        · exact (flags_routeBlocked _ _ _ _).trans (flags_showOffset _ _)
        · exact flags_showOffset _ _
  · rfl

theorem flags_call (d : δ) {call : Call} (other : ¬call.Chooses) :
    (call.run c d).1.scene.flags = c.scene.flags := by
  cases call with
  | setSettings | setViewport | setGridOrigin | requestSync => rfl
  | dragMove position bypass now =>
    simp only [Call.run, dragMove]
    split
    · split
      · rfl
      · exact flags_showOffset _ _
    · rfl
  | endMove now => exact flags_endMove c d now
  | beginResize key edges position =>
    simp only [Call.run, beginResize]
    split
    · rfl
    · exact Scene.flags_updateBox _ _ fun _ => rfl
  | dragResize position bypass now =>
    simp only [Call.run, dragResize]
    split
    · split
      · rfl
      · refine (flags_follow _ _).trans ?_
        exact Scene.flags_updateBox _ _ fun _ => rfl
    · rfl
  | endResize =>
    simp only [Call.run, endResize]
    repeat' split
    all_goals rfl
  | alignSelection a =>
    simp only [Call.run, alignSelection]
    split
    · rfl
    · split
      · rfl
      · split
        · rfl
        · exact (flags_follow _ _).trans (flags_placeBoxes c.scene (c.alignMoves a))
  | beginConnection jack multi =>
    simp only [Call.run, beginConnection]
    repeat' split
    all_goals rfl
  | dragConnection position =>
    simp only [Call.run, dragConnection]
    split
    · split
      · rfl
      · exact flags_aim _ _
    · rfl
  | endConnection =>
    simp only [Call.run, endConnection]
    split
    · split
      · exact flags_clearTarget _
      · split <;> exact flags_clearTarget _
    · rfl
  | cancelConnection =>
    simp only [Call.run, cancelConnection]
    split
    · exact flags_clearTarget _
    · rfl
  | beginSegment key position =>
    simp only [Call.run, beginSegment]
    repeat' split
    all_goals rfl
  | dragSegment position =>
    simp only [Call.run, dragSegment]
    split
    · split
      · rfl
      · split
        · rfl
        · exact Scene.flags_updateCable _ _ fun _ => rfl
    · rfl
  | endSegment now =>
    simp only [Call.run, endSegment]
    split
    · split
      · split
        · rfl
        · exact flags_pushToken ..
      · rfl
    · rfl
  | cancelSegment => exact flags_cancelSegment c
  | routeCable key now => exact flags_routeCable ..
  | straightenCable key now =>
    simp only [Call.run, straightenCable]
    split
    · rfl
    · exact (flags_pushToken ..).trans (Scene.flags_updateCable _ _ fun _ => rfl)
  | reanchorCable key =>
    simp only [Call.run, reanchorCable]
    split
    · exact Scene.flags_updateCable _ _ fun _ => rfl
    · rfl
  | pushToken key token now => exact flags_pushToken ..
  | tick now =>
    simp only [Call.run, tick]
    split
    · exact flags_markSaved _
    · rfl
  | flushTokens => exact flags_markSaved _
  | _ => exact absurd trivial other

theorem mem_keys_of_open {α : Type} {a : Arena α} (exact : a.Exact) {k : Nat} {shut : Bool}
    (through : ¬(shut || (a.get? k).isNone) = true) : k ∈ keys a.entries := by
  rw [Bool.or_eq_true, not_or, Option.isNone_iff_eq_none, exact.get?_eq_none_iff, not_not] at through
  exact through.2

theorem Agrees.sync (agrees : Agrees c) (regular : c.scene.Regular) (d : δ) :
    Agrees (c.sync d).1 := by
  have kept (u : Canvas) : u.dropLostDrag.selection = u.selection := by
    unfold dropLostDrag
    split
    · exact selection_clearTarget _
    · rfl
  refine Agrees.of_flags ?_ (congrArg Selection.boxes (kept _)) (congrArg Selection.cables (kept _))
    (flags_dropLostDrag _)
  exact agrees_of_marked (agrees.within.retain (regular.reconcile _)) rfl

theorem cables_cancelDrag (c : Canvas) : c.cancelDrag.selection.cables = c.selection.cables := by
  unfold cancelDrag
  split <;> simp

theorem Agrees.cancelDrag (agrees : Agrees c) : Agrees c.cancelDrag :=
  agrees.of_flags (boxes_cancelDrag c) (cables_cancelDrag c) (flags_cancelDrag c)

theorem Agrees.cancelBlank (agrees : Agrees c) (key : Nat) : Agrees (c.cancelBlank key).1 := by
  unfold Canvas.cancelBlank
  split
  · exact ⟨agrees.within.removeBox key, Selection.bears_removeBox agrees.bears key⟩
  · exact agrees

theorem Agrees.beginMove (agrees : Agrees c) (regular : c.scene.Regular) (grabbed : Nat)
    (position : Point) : Agrees (c.beginMove grabbed position).1 := by
  unfold Canvas.beginMove
  split
  · exact agrees
  · next found =>
    have there := mem_keys_of_open regular.boxOrder found
    dsimp only
    split
    · exact agrees.of_flags rfl rfl (Scene.flags_updateBoxes _ _ fun _ => rfl)
    · have held : Agrees { c with selection := c.selection.onlyBox grabbed }.markSelection :=
        agrees_of_marked (.onlyBox c.selection there) rfl
      exact held.of_flags rfl rfl (Scene.flags_updateBoxes _ _ fun _ => rfl)

theorem Agrees.deleteSelection (agrees : Agrees c) (d : δ) : Agrees (c.deleteSelection d).1 := by
  unfold Canvas.deleteSelection
  split
  · exact agrees
  · dsimp only
    split
    · split <;> exact agrees.of_flags rfl rfl rfl
    · split <;> exact agrees_of_marked (.empty _ none) rfl

theorem Agrees.run (agrees : Agrees c) (regular : c.scene.Regular) (call : Call) (d : δ) :
    Agrees (call.run c d).1 := by
  cases call with
  | sync => exact agrees.sync regular d
  | idle =>
    simp only [Call.run, idle]
    split
    · exact agrees
    · exact agrees.sync regular d
  | selectBox key toggle =>
    simp only [Call.run, selectBox]
    split
    · exact agrees
    · next found =>
      have there := mem_keys_of_open regular.boxOrder found
      refine agrees_of_marked ?_ rfl
      cases toggle with
      | true => exact agrees.within.toggleBox there
      | false => exact .onlyBox c.selection there
  | selectCable key toggle =>
    simp only [Call.run, selectCable]
    split
    · exact agrees
    · next found =>
      have there := mem_keys_of_open regular.cableOrder found
      refine agrees_of_marked ?_ rfl
      cases toggle with
      | true => exact agrees.within.toggleCable there
      | false => exact .onlyCable c.selection there
  | deselectAll => exact agrees_of_marked (.empty c.scene none) rfl
  | beginLasso position =>
    simp only [Call.run, beginLasso]
    split
    · exact agrees
    · exact agrees_of_marked (.empty c.scene _) rfl
  | updateLasso position =>
    simp only [Call.run, updateLasso]
    split
    · exact agrees.of_flags rfl rfl rfl
    · exact agrees
  | endLasso =>
    simp only [Call.run, endLasso]
    split
    · exact agrees_of_marked (agrees.within.closeLasso regular) rfl
    · exact agrees
  | beginMove grabbed position => exact agrees.beginMove regular grabbed position
  | setLocked locked =>
    cases locked with
    | true => exact agrees_of_marked (.empty c.cancelDrag.scene none) rfl
    | false => exact agrees.of_flags rfl rfl rfl
  | placeBlank position =>
    simp only [Call.run, placeBlank]
    split
    · exact agrees
    · have there : c.scene.nextBox ∈ keys (c.scene.addBox (Box.blank position)).2.boxes := by
        rw [Scene.boxes_addBox regular.boxOrder]
        exact Keyed.mem_keys_of_mem (List.mem_append_right _ List.mem_cons_self)
      exact agrees_of_marked (.onlyBox c.selection there) rfl
  | cancelBlank key => exact agrees.cancelBlank key
  | commitBlank key text =>
    simp only [Call.run, commitBlank]
    split
    · exact agrees
    · split
      · exact agrees
      · split
        · exact agrees.cancelBlank key
        · split
          · exact agrees
          · exact agrees.of_flags rfl rfl (Scene.flags_updateBox _ _ fun _ => rfl)
  | deleteSelection => exact agrees.deleteSelection d
  | cancelDrag => exact agrees.cancelDrag
  | _ =>
    exact agrees.of_flags (congrArg Selection.boxes (selection_call d id))
      (congrArg Selection.cables (selection_call d id)) (flags_call d id)

/-- Whatever is done with a canvas and whatever becomes of its documents meanwhile, no key is selected
twice or without its box or cable, and a box or cable is marked just when its key is selected. -/
theorem selection_marked (reached : Reached c) :
    c.selection.Within c.scene ∧ c.scene.Bears c.selection := by
  have agrees : Agrees c := by
    induction reached with
    | ofSettings settings =>
      have none {α : Type} (k : Nat) : ({} : Arena α).get? k = none :=
        Arena.Exact.empty.get?_eq_none_iff.2 (by simp [keys, Arena.entries])
      exact ⟨.empty _ _, fun k b found => absurd ((none k).symm.trans found) (by simp),
        fun k x found => absurd ((none k).symm.trans found) (by simp)⟩
    | call reached d call ih => exact ih.run reached.regular call d
  exact ⟨agrees.within, agrees.bears⟩

/-- Two boxes, a third one and a cable are selected. The third box goes, and the cable is wired to
another inlet, where it is a new one. -/
def rewired : Canvas :=
  let drawn : Patch :=
    { nodes := [(1, ⟨"osc~", ⟨0, 0, 40, 20⟩, [], [true]⟩),
        (2, ⟨"dac~", ⟨0, 100, 80, 20⟩, [true, true], []⟩), (4, ⟨"mtof", ⟨0, 200, 40, 20⟩, [], []⟩)]
      wires := [⟨3, ⟨1, 0, 2, 0⟩, ""⟩] }
  let redrawn : Patch :=
    { nodes := [(2, ⟨"dac~", ⟨0, 100, 80, 20⟩, [true, true], []⟩),
        (1, ⟨"osc~", ⟨0, 0, 40, 20⟩, [], [true]⟩)]
      wires := [⟨3, ⟨1, 0, 2, 1⟩, ""⟩] }
  let events : List Event := [.call .sync, .call (.selectBox 1 false), .call (.selectBox 3 true),
    .call (.selectBox 2 true), .call (.selectCable 1 true)]
  (Call.run (play {} drawn events).1 redrawn .sync).1

theorem selection_marked_rewired : Reached rewired ∧ rewired.selection.boxes = [1, 2] ∧
    rewired.selection.cables = [] ∧ keys rewired.scene.cables = [2] ∧
    rewired.selection.Within rewired.scene ∧ rewired.scene.Bears rewired.selection := by
  have reached : Reached rewired := (reached_play _ _ _).call _ _
  exact ⟨reached, by decide +kernel, by decide +kernel, by decide +kernel, selection_marked reached⟩

end Canvas

end Patchbay
