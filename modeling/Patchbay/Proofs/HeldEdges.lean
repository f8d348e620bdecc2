import Patchbay.Proofs.Square

/-!
# Edges that are held

A box is resized by some of its edges, and snapping, a ratio and a least size each have a say in where
these go. The other edges stay where they are, also when an edge is dragged past the one across from it,
and nothing but the box that is held changes its bounds.
-/

namespace Patchbay

open Keyed (keys update)

theorem Widget.minimumSize_pos (w : Widget) : 0 < w.minimumSize.1 ∧ 0 < w.minimumSize.2 := by
  unfold minimumSize
  split <;> decide

namespace Edges

variable {e : Edges} {home now : Rect} {least : Int × Int}

/-- The edges that are not dragged stay. -/
structure Leaves (e : Edges) (home now : Rect) : Prop where
  left : e.left = false → now.x = home.x
  right : e.right = false → now.right = home.right
  top : e.top = false → now.y = home.y
  bottom : e.bottom = false → now.bottom = home.bottom

theorem leaves_apply (e : Edges) (home : Rect) (offset : Point) : e.Leaves home (e.apply home offset) where
  left still := by simp [apply, still]
  right still := by simp [apply, still, Rect.right]
  top still := by simp [apply, still]
  bottom still := by simp [apply, still, Rect.bottom]

/-- What is too small is made larger at an edge that is dragged: if none of the two is, the length is the
one it was, and that is not too small. -/
theorem Leaves.keepMinimum (leaves : e.Leaves home now) (least_pos : 0 < least.1 ∧ 0 < least.2)
    (wide : least.1 ≤ (home.reduced margin).width) (tall : least.2 ≤ (home.reduced margin).height) :
    e.Leaves home (Canvas.keepMinimum now e least) where
  left still := by
    have kept := leaves.left still
    simpa [Canvas.keepMinimum, still] using kept
  right still := by
    have kept := leaves.right still
    cases dragged : e.left with
    | true =>
      simp only [Canvas.keepMinimum, dragged, Bool.and_true, decide_eq_true_eq, Rect.right] at kept ⊢
      split <;> omega
    | false =>
      have across := leaves.left dragged
      simp only [Canvas.keepMinimum, dragged, Bool.and_false, Bool.false_eq_true, if_false, Rect.right,
        Rect.reduced] at kept wide ⊢
      omega
  top still := by
    have kept := leaves.top still
    simpa [Canvas.keepMinimum, still] using kept
  bottom still := by
    have kept := leaves.bottom still
    cases dragged : e.top with
    | true =>
      simp only [Canvas.keepMinimum, dragged, Bool.and_true, decide_eq_true_eq, Rect.bottom] at kept ⊢
      split <;> omega
    | false =>
      have across := leaves.top dragged
      simp only [Canvas.keepMinimum, dragged, Bool.and_false, Bool.false_eq_true, if_false, Rect.bottom,
        Rect.reduced] at kept tall ⊢
      omega

end Edges

namespace Canvas

variable {c t : Canvas} {key : Nat} {edges : Edges} {start : Point} {a b : Box}

theorem dragResize_stop {offset : Point} (drag : t.drag = .resize key edges start offset)
    (found : t.scene.box? key = some a) (s : Stop) : ∃ offset',
      let r := keepMinimum (edges.apply a.home offset') edges a.widget.minimumSize
      (t.dragResize s.position s.bypass s.now).2 = some r ∧
        (t.dragResize s.position s.bypass s.now).1.scene.boxArena
          = t.scene.boxArena.update key fun a => { a with bounds := r }.layoutJacks := by
  simp only [dragResize, drag, found]
  exact ⟨_, rfl, rfl⟩

theorem widened_foldl (taken : (c.beginResize key edges start).2 = true)
    (found : c.scene.box? key = some b) (tugs : List Tug) :
    let t := tugs.foldl widen (c.beginResize key edges start).1
    Widened c key t ∧ ∃ offset, t.drag = .resize key edges start offset := by
  refine List.foldlRecOn (motive := fun t => Widened c key t ∧
    ∃ offset, t.drag = .resize key edges start offset) _ _
    ⟨widened_beginResize taken, drag_beginResize taken⟩ ?_
  rintro t ⟨widened, drag⟩ tug -
  obtain ⟨a, there, -⟩ := widened.exists_box found
  exact ⟨widened.widen tug, drag_widen drag (by rw [there]; rfl) tug⟩

/-- The rectangle that a stop is answered with for a box as it was taken up, and the canvas then: only
dragged edges have moved, the least content has room, the rectangle is shown, and no other box differs. -/
structure Pulled (c : Canvas) (key : Nat) (edges : Edges) (b : Box) (r : Rect) (u : Canvas) : Prop where
  leaves : edges.Leaves b.bounds r
  wide : b.widget.minimumSize.1 ≤ (r.reduced margin).width
  tall : b.widget.minimumSize.2 ≤ (r.reduced margin).height
  shown : (u.scene.box? key).map Box.bounds = some r
  keys : keys u.scene.boxes = keys c.scene.boxes
  others : ∀ other, other ≠ key → u.scene.box? other = c.scene.box? other

/-- A box that is not too small is taken up by any of its edges. Wherever the mouse stops and whatever has
been snapped to, the edges that are not dragged stay, the content does not get too small, and no other box
changes. -/
theorem pulled_dragResize (taken : (c.beginResize key edges start).2 = true)
    (found : c.scene.box? key = some b) (wide : b.widget.minimumSize.1 ≤ b.content.width)
    (tall : b.widget.minimumSize.2 ≤ b.content.height) (tugs : List Tug) (s : Stop) :
    let t := tugs.foldl widen (c.beginResize key edges start).1
    ∃ r, (t.dragResize s.position s.bypass s.now).2 = some r ∧
      Pulled c key edges b r (t.dragResize s.position s.bypass s.now).1 := by
  intro t
  obtain ⟨widened, offset, drag⟩ := widened_foldl taken found tugs
  obtain ⟨a, there, home, widget⟩ := widened.exists_box found
  obtain ⟨-, -, g, boxes, -⟩ := widened
  obtain ⟨offset', answer, after⟩ := dragResize_stop drag there s
  rw [home, widget] at answer after
  have least := b.widget.minimumSize_pos
  refine ⟨_, answer, ?_, ?_, ?_, ?_, ?_, fun other apart => ?_⟩
  · exact (edges.leaves_apply b.bounds offset').keepMinimum least wide tall
  · rw [width_keepMinimum _ _ (Int.le_of_lt least.1)]
    exact Int.le_max_right _ _
  · rw [height_keepMinimum _ _ (Int.le_of_lt least.2)]
    exact Int.le_max_right _ _
  · rw [Scene.box?] at there ⊢
    rw [after, Arena.get?_update_self, there]
    rfl
  · rw [Scene.boxes, after, Arena.entries_update, Keyed.keys_update, boxes, Arena.entries_update,
      Keyed.keys_update, Scene.boxes]
  · rw [Scene.box?, after, Arena.get?_update_ne apart, boxes, Arena.get?_update_ne apart, Scene.box?]

/-- By its upper left corner past the lower right one, and back some of the way. -/
theorem pulled_dragResize_corner :
    let c := ((ofSettings {}).sync Patch.pair).1
    let edges : Edges := { left := true, top := true }
    let b : Box := Box.ofInfo 1 ⟨"osc~", ⟨0, 0, 40, 20⟩, [], []⟩ 0
    let t := [Tug.stop ⟨⟨100, 70⟩, true, 0⟩].foldl widen (c.beginResize 1 edges .origin).1
    (c.beginResize 1 edges .origin).2 = true ∧ c.scene.box? 1 = some b ∧
      b.widget.minimumSize.1 ≤ b.content.width ∧ b.widget.minimumSize.2 ≤ b.content.height ∧
      ∃ r, (t.dragResize ⟨80, 70⟩ true 1).2 = some r ∧
        Pulled c 1 edges b r (t.dragResize ⟨80, 70⟩ true 1).1 := by
  intro c edges b t
  have taken : (c.beginResize 1 edges .origin).2 = true := by decide +kernel
  have found : c.scene.box? 1 = some b := by decide +kernel
  have wide : b.widget.minimumSize.1 ≤ b.content.width := by decide
  have tall : b.widget.minimumSize.2 ≤ b.content.height := by decide
  exact ⟨taken, found, wide, tall,
    pulled_dragResize taken found wide tall [.stop ⟨⟨100, 70⟩, true, 0⟩] ⟨⟨80, 70⟩, true, 1⟩⟩

end Canvas

end Patchbay
