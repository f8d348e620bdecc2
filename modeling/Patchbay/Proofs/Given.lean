import Patchbay.Proofs.Chosen
import Patchbay.Proofs.Passes

/-!
# Boxes that are selected have been there

A key is given out once, so under a key that is selected a pass finds the box that was selected, or
none. Documents of any kind may come one after the other.
-/

namespace Patchbay

open Keyed (keys)

namespace Scene

variable {s : Scene}

theorem Regular.advances (regular : s.Regular) (l : Listing) (report : SyncReport) :
    (Scene.showNodes l (s, report)).1.Regular ∧ Advances l s (Scene.showNodes l (s, report)).1 := by
  rw [Scene.showNodes]
  refine List.foldlRecOn (motive := fun state : Scene × SyncReport => state.1.Regular ∧
    Advances l s state.1) _ _ ⟨regular, .refl l s⟩ ?_
  rintro ⟨t, report⟩ ⟨regular, advances⟩ e -
  exact ⟨regular.showNode report e, advances.trans (regular.advances_showNode report e)⟩

theorem Regular.follows_reconcile (regular : s.Regular) (l : Listing) :
    s.nextBox ≤ (s.reconcile l).1.nextBox ∧ ∀ k b, (k, b) ∈ (s.reconcile l).1.boxes →
      k < s.nextBox → ∃ a, (k, a) ∈ s.boxes ∧ a.Follows l b := by
  have arena := boxArena_reconcile s l
  have boxes := boxes_congr (s := (Scene.showNodes l (s.prune l, {})).1.sortBoxes) arena
  obtain ⟨shown, advances⟩ := (regular.prune l).advances l {}
  refine ⟨?_, fun k b mem low => ?_⟩
  · have next : (s.reconcile l).1.nextBox
        = (Scene.showNodes l (s.prune l, {})).1.sortBoxes.nextBox :=
      congrArg Arena.next arena
    rw [next, ← nextBox_prune l s]
    exact advances.next
  have mem : (k, b) ∈ (Scene.showNodes l (s.prune l, {})).1.boxes := mem_sortBoxes.1 (boxes ▸ mem)
  rcases advances.former k (Keyed.mem_keys_of_mem mem) with old | new
  · obtain ⟨⟨j, a⟩, was, same⟩ := List.mem_map.1 old
    obtain rfl : j = k := same
    obtain ⟨b', mem', follows⟩ := advances.boxes j a was
    obtain rfl := Keyed.eq_of_mem shown.boxes mem' mem
    rw [boxes_prune] at was
    exact ⟨a, (List.mem_filter.1 was).1, follows⟩
  · rw [nextBox_prune] at new
    omega

end Scene

namespace Canvas

variable {δ : Type} [Document δ] {c : Canvas} {d : δ}

theorem Outcome.nextBox_le {s u : Scene} {e : δ} (outcome : Outcome s d u e) (regular : s.Regular) :
    s.nextBox ≤ u.nextBox := by
  have next {v : Scene} (outline : u.outline = v.outline) : u.nextBox = v.nextBox :=
    Scene.nextBox_of_outline outline
  cases outcome with
  | same outline => exact Nat.le_of_eq (next outline).symm
  | reconciled outline =>
    rw [next outline]
    exact (regular.follows_reconcile _).1
  | placed position outline =>
    rw [next outline, Scene.nextBox_addBox]
    exact Nat.le_succ _
  | dropped keys blank outline =>
    exact Nat.le_of_eq ((next outline).trans (Scene.nextBox_foldl_removeBox keys s)).symm
  | committed key handle text position made blank created closed outline =>
    exact Nat.le_of_eq ((next outline).trans (Arena.next_update ..)).symm

theorem selected_call (d : δ) {call : Call} (other : ∀ position, call ≠ .placeBlank position) :
    ∀ k ∈ (call.run c d).1.selection.boxes,
      k ∈ c.selection.boxes ∨ (c.scene.box? k).isSome = true := by
  have kept {ks : List Nat} (fewer : ks.Sublist c.selection.boxes) :
      ∀ k ∈ ks, k ∈ c.selection.boxes ∨ (c.scene.box? k).isSome = true :=
    fun k there => Or.inl (fewer.subset there)
  have same := kept (List.Sublist.refl _)
  have none := kept (List.nil_sublist _)
  have known {k : Nat} {b : Bool} (found : ¬(b || (c.scene.box? k).isNone) = true) :
      (c.scene.box? k).isSome = true := by
    rw [Bool.or_eq_true, not_or] at found
    simpa [Option.isSome_iff_ne_none] using found.2
  cases call with
  | sync => exact kept (boxes_sync c d)
  | idle =>
    simp only [Call.run, idle]
    split
    · exact same
    · exact kept (boxes_sync c d)
  | selectBox key toggle =>
    simp only [Call.run, selectBox]
    split
    · exact same
    · next found =>
      intro k mem
      cases toggle with
      | false =>
        obtain rfl : k = key := List.mem_singleton.1 mem
        exact Or.inr (known found)
      | true =>
        have mem : k ∈ Selection.toggle key c.selection.boxes := mem
        unfold Selection.toggle at mem
        split at mem
        · exact Or.inl (List.mem_of_mem_erase mem)
        · rcases List.mem_append.1 mem with mem | mem
          · exact Or.inl mem
          · rw [List.mem_singleton.1 mem]
            exact Or.inr (known found)
  | selectCable key toggle =>
    simp only [Call.run, selectCable]
    split
    · exact same
    · cases toggle with
      | true => exact same
      | false => exact none
  | deselectAll => exact none
  | beginLasso position =>
    simp only [Call.run, beginLasso]
    split
    · exact same
    · exact none
  | updateLasso position =>
    simp only [Call.run, updateLasso]
    split <;> exact same
  | endLasso =>
    simp only [Call.run, endLasso]
    split
    · simp only [selection_markSelection, Selection.closeLasso]
      split
      · exact same
      · split
        · exact fun k mem => Or.inr (Scene.isSome_box? ((List.filter_sublist.map _).subset mem))
        · exact same
    · exact same
  | beginMove grabbed position =>
    simp only [Call.run, beginMove]
    split
    · exact same
    · next found =>
      dsimp only
      split
      · exact same
      · intro k mem
        obtain rfl : k = grabbed := List.mem_singleton.1 mem
        exact Or.inr (known found)
  | setLocked locked =>
    simp only [Call.run, setLocked]
    split
    · exact none
    · exact same
  | placeBlank position => exact absurd rfl (other position)
  | cancelBlank key => exact kept (boxes_cancelBlank c key)
  | cancelDrag =>
    simp only [Call.run, boxes_cancelDrag]
    exact same
  | deleteSelection =>
    simp only [Call.run, deleteSelection]
    split
    · exact same
    · split
      · split <;> exact same
      · split <;> exact none
  | commitBlank key text =>
    simp only [Call.run, commitBlank]
    split
    · exact same
    · split
      · exact same
      · split
        · exact kept (boxes_cancelBlank c key)
        · split <;> exact same
  | _ =>
    rw [selection_call d id]
    exact same

/-- Every box that is selected has been there. -/
theorem Reached.given (reached : Reached c) : ∀ k ∈ c.selection.boxes, k < c.scene.nextBox := by
  induction reached with
  | ofSettings settings => exact fun k mem => absurd mem List.not_mem_nil
  | @call δ _ c reached d call ih =>
    intro k mem
    by_cases placed : ∃ position, call = .placeBlank position
    · obtain ⟨position, rfl⟩ := placed
      simp only [Call.run, placeBlank] at mem ⊢
      split at mem
      · next locked =>
        rw [if_pos locked]
        exact ih k mem
      · next unlocked =>
        obtain rfl : k = c.scene.nextBox := List.mem_singleton.1 mem
        rw [if_neg unlocked]
        have next := Scene.nextBox_of_outline (Scene.outline_mark
          (c.selection.onlyBox c.scene.nextBox) (c.scene.addBox (Box.blank position)).2)
        exact Nat.lt_of_lt_of_eq (Nat.lt_succ_self _)
          (next.trans (Scene.nextBox_addBox c.scene _)).symm
    · refine Nat.lt_of_lt_of_le ?_ ((call.outcome c d).nextBox_le reached.regular)
      rcases selected_call d (fun position same => placed ⟨position, same⟩) k mem with old | there
      · exact ih k old
      · exact Arena.lt_next (Option.some_get there).symm

theorem boxes_selection_sync (c : Canvas) (d : δ) : (c.sync d).1.selection.boxes
    = c.selection.boxes.filter fun k => (((c.scene.reconcile
        (Document.listing (Document.deliver (Document.deliver d)))).1).box? k).isSome := by
  have kept (t : Canvas) : t.dropLostDrag.selection = t.selection := by
    unfold dropLostDrag
    split
    · exact selection_clearTarget _
    · rfl
  simp only [sync, kept]
  rfl

theorem mem_selection_sync {k : Nat} (held : k ∈ c.selection.boxes)
    (there : k ∈ keys (c.sync d).1.scene.boxes) : k ∈ (c.sync d).1.selection.boxes := by
  rw [boxes_selection_sync]
  refine List.mem_filter.2 ⟨held, ?_⟩
  have outline : (c.sync d).1.scene.outline = (c.scene.reconcile
      (Document.listing (Document.deliver (Document.deliver d)))).1.outline :=
    (outline_dropLostDrag _).trans (outline_markSelection _)
  rw [Scene.keys_boxes, outline, ← Scene.keys_boxes] at there
  exact Scene.isSome_box? there

end Canvas

end Patchbay
