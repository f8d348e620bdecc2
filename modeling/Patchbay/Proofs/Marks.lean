import Patchbay.Proofs.Recast

/-!
# Marks that a canvas leaves on a scene

Selecting and aiming mark boxes and cables. Marks change nothing that a document speaks of: a scene
that is settled is settled with other marks, too.
-/

namespace Patchbay

theorem Box.Alike.tag {a b : Box} (alike : a.Alike b) : a.tag = b.tag := by
  have inlets : a.inletCount = b.inletCount := alike.counts .inlet
  have outlets : a.outletCount = b.outletCount := alike.counts .outlet
  rw [Box.tag, Box.tag, alike.handle, alike.widget, alike.editing, alike.index, alike.labels, inlets,
    outlets]

namespace Scene

open Keyed (mapValues)

/-- A scene with other marks: each box is much as it was, and a cable may be selected or not. -/
structure Marked (s t : Scene) (f : Nat → Box → Box) (g : Nat → Bool) : Prop where
  boxArena : t.boxArena = s.boxArena.mapValues f
  alike : ∀ k b, (f k b).Alike b
  cableArena : t.cableArena = s.cableArena.mapValues fun k x => { x with selected := g k }
  layers : t.layers = s.layers

variable {s t : Scene} {f : Nat → Box → Box} {g : Nat → Bool} {c : Contents}
  {shown blanks : Keyed Box}

theorem refreshCable_select (x : Cable) (on : Bool) (token : String) (a b : Point) :
    refreshCable { x with selected := on } token a b
      = { refreshCable x token a b with selected := on } := by
  unfold refreshCable
  split <;> rfl

namespace Marked

theorem recast (marked : Marked s t f g) :
    Recast s t f fun k x => { x with selected := g k } where
  boxArena := marked.boxArena
  tag k b := (marked.alike k b).tag
  cableArena := marked.cableArena
  ends _ _ := ⟨rfl, rfl, rfl⟩
  layers := marked.layers

theorem trans {u : Scene} {f' : Nat → Box → Box} {g' : Nat → Bool} (first : Marked s t f g)
    (second : Marked t u f' g') : Marked s u (fun k b => f' k (f k b)) g' where
  boxArena := by
    rw [second.boxArena, first.boxArena, Arena.mapValues_mapValues]
  alike k b := (second.alike k _).trans (first.alike k b)
  cableArena := by
    rw [second.cableArena, first.cableArena, Arena.mapValues_mapValues]
  layers := second.layers.trans first.layers

theorem anchor? (marked : Marked s t f g) (ref : JackRef) : t.anchor? ref = s.anchor? ref :=
  anchor?_mapBoxes marked.boxArena (fun k b => (marked.alike k b).jackBounds?) ref

theorem rows {nodes : Keyed Node} (marked : Marked s t f g) (rows : Rows nodes shown) :
    Rows nodes (mapValues shown f) := by
  refine ⟨(List.length_map _).trans rows.1, fun j e he => ?_⟩
  obtain ⟨⟨k, b⟩, hb, rfl⟩ := Option.map_eq_some_iff.1 ((List.getElem?_map ..).symm.trans he)
  obtain ⟨h, n, hn, named, steady⟩ := rows.2 j (k, b) hb
  have alike := marked.alike k b
  exact ⟨h, n, hn, alike.handle.trans named, steady.of_alike alike⟩

theorem settled (marked : Marked s t f g) (settled : Settled c shown blanks s) :
    Settled c (mapValues shown f) (mapValues blanks f) t := by
  refine marked.recast.settled settled (marked.rows settled.rows) ?_
  intro x _ token a b anchors same
  refine ⟨a, b, ?_, ?_⟩
  · simp only [ends?, marked.anchor?]
    exact anchors
  · rw [refreshCable_select, same]

end Marked

theorem marked_mark (sel : Selection) (s : Scene) : Marked s (sel.mark s)
    (fun k b => { b with selected := sel.boxes.contains k }) fun k => sel.cables.contains k where
  boxArena := rfl
  alike _ b := b.alike_select _
  cableArena := rfl
  layers := rfl

/-- What is marked for a selection shows it, also where a highlight has gone since. -/
structure Bears (s : Scene) (sel : Selection) : Prop where
  boxes : ∀ k b, s.box? k = some b → b.selected = sel.boxes.contains k
  cables : ∀ k x, s.cable? k = some x → x.selected = sel.cables.contains k

theorem bears_mark (sel : Selection) (s : Scene) : (sel.mark s).Bears sel where
  boxes k b found := by
    rw [(marked_mark sel s).recast.box?] at found
    obtain ⟨a, -, rfl⟩ := Option.map_eq_some_iff.1 found
    rfl
  cables k x found := by
    rw [(marked_mark sel s).recast.cable?] at found
    obtain ⟨y, -, rfl⟩ := Option.map_eq_some_iff.1 found
    rfl

theorem Bears.mark_eq {sel : Selection} (bears : s.Bears sel) : sel.mark s = s := by
  have boxes : s.boxArena.mapValues (fun k b => { b with selected := sel.boxes.contains k })
      = s.boxArena := Arena.mapValues_eq_self fun k b found => by rw [← bears.boxes k b found]
  have cables : s.cableArena.mapValues (fun k c => { c with selected := sel.cables.contains k })
      = s.cableArena := Arena.mapValues_eq_self fun k x found => by rw [← bears.cables k x found]
  rw [Selection.mark, mapCables, mapBoxes, boxes]
  exact congrArg (fun cs => ({ s with cableArena := cs } : Scene)) cables

theorem marked_updateJack {sel : Selection} (bears : s.Bears sel) (ref : JackRef) (on : Bool) :
    Marked s (s.updateJack ref fun q => { q with targeted := on })
      (fun k b => if k = ref.box then b.mapJack ref.side ref.index fun q => { q with targeted := on }
        else b)
      fun k => sel.cables.contains k where
  boxArena := Arena.update_eq_mapValues ..
  alike k b := by
    split
    · exact b.alike_mapJack (f := fun q => { q with targeted := on }) (fun _ => rfl) (fun _ => rfl)
        (fun _ => rfl) _ _
    · exact b.alike_rfl
  cableArena :=
    (Arena.mapValues_eq_self fun k x found => by rw [← bears.cables k x found]).symm
  layers := rfl

theorem Bears.updateBox {sel : Selection} (bears : s.Bears sel) (key : Nat) {f : Box → Box}
    (same : ∀ b, (f b).selected = b.selected) : (s.updateBox key f).Bears sel where
  boxes k b found := by
    rw [box?, Scene.updateBox, Arena.get?_update] at found
    split at found
    · obtain ⟨a, there, rfl⟩ := Option.map_eq_some_iff.1 found
      exact (same a).trans (bears.boxes k a there)
    · exact bears.boxes k b found
  cables := bears.cables

theorem Bears.updateJack {sel : Selection} (bears : s.Bears sel) (ref : JackRef) (h : Jack → Jack) :
    (s.updateJack ref h).Bears sel :=
  bears.updateBox ref.box fun b => by rw [Box.mapJack_eq]

end Scene

end Patchbay
