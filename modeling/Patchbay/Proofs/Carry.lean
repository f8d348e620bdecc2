import Patchbay.Canvas.Move
import Patchbay.Proofs.Trail

/-!
# Boxes that are carried

While boxes are dragged, each of them is as far from where it was taken up as the mouse, and no other
box moves. Cables keep their ends.
-/

namespace Patchbay

def Box.shifted (b : Box) (d : Point) : Box := { b with bounds := b.bounds.shifted d }

theorem Box.shifted_origin (b : Box) : b.shifted .origin = b := by
  rw [shifted, Rect.shifted_origin]

theorem Box.Alike.place {a b : Box} {d e : Point} {r home : Rect} (alike : a.Alike (b.shifted d))
    (there : r = b.bounds.shifted e) : Alike { a with bounds := r, home := home } (b.shifted e) where
  handle := alike.handle
  widget := alike.widget
  bounds := there
  editing := alike.editing
  index := alike.index
  counts side := by cases side; exacts [alike.counts .inlet, alike.counts .outlet]
  labels := alike.labels
  flags := alike.flags
  spots := alike.spots

namespace Scene

/-- A scene whose boxes are where they were but for some, which are all moved by the same way. -/
structure Carried (s t : Scene) (moved : List Nat) (d : Point) (f : Nat → Box → Box)
    (g : Nat → Cable → Cable) : Prop where
  recast : Recast s t f g
  alike : ∀ k b, (f k b).Alike (if moved.contains k then b.shifted d else b)

variable {s t : Scene} {moved : List Nat} {d e : Point} {f : Nat → Box → Box}
  {g : Nat → Cable → Cable}

theorem Carried.refl (s : Scene) (moved : List Nat) :
    Carried s s moved .origin (fun _ b => b) fun _ x => x where
  recast := .refl s
  alike k b := by
    rw [Box.shifted_origin, ite_self]
    exact b.alike_rfl

theorem Carried.alike_put (carried : Carried s t moved d f g) (put : Box → Box)
    (place : ∀ k b, moved.contains k = true → ∃ home,
      put (f k b) = { f k b with bounds := b.bounds.shifted e, home := home }) (k : Nat) (b : Box) :
    Box.Alike (if moved.contains k then put (f k b) else f k b)
      (if moved.contains k then b.shifted e else b) := by
  have before := carried.alike k b
  by_cases hk : moved.contains k = true
  · obtain ⟨home, same⟩ := place k b hk
    simp only [hk, if_true] at before ⊢
    rw [same]
    exact before.place rfl
  · simpa only [hk, Bool.false_eq_true, if_false] using before

end Scene

namespace Canvas

open Scene (Carried Recast)

structure Holds (c : Canvas) (s : Scene) (moved : List Nat) (d : Point) (f : Nat → Box → Box)
    (g : Nat → Cable → Cable) : Prop where
  chosen : c.selection.boxes = moved
  carried : Carried s c.scene moved d f g
  home : ∀ k b, moved.contains k = true → (f k b).home = b.bounds

variable {c : Canvas} {s : Scene} {moved : List Nat} {d : Point} {f : Nat → Box → Box}
  {g : Nat → Cable → Cable}

theorem Holds.showOffset (holds : Holds c s moved d f g) (e : Point) :
    ∃ f' g', Holds (c.showOffset e) s moved e f' g' := by
  obtain ⟨rfl, carried, home⟩ := holds
  let put (b : Box) : Box := { b with bounds := b.home.shifted e }
  let t := c.scene.updateBoxes c.selection.boxes put
  have placed : Recast s t _ g := carried.recast.trans
    (.updateBoxes c.scene c.selection.boxes put fun _ => rfl)
  have alike := carried.alike_put put (e := e) fun k b hk =>
    ⟨(f k b).home, by simp only [put, home k b hk]⟩
  have followed := placed.trans (recast_follow { c with scene := t } c.selection.boxes)
  refine ⟨_, _, rfl, ⟨followed, alike⟩, fun k b hk => ?_⟩
  simp only [hk, if_true]
  exact home k b hk

end Canvas

end Patchbay
