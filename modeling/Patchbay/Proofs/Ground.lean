import Patchbay.Proofs.Moved

/-!
# The ground that cables lie on

Tokens say where cables run and nothing else. So scenes of documents that differ in their tokens have
the same boxes, and the same cables between the same jacks, under the same keys.
-/

namespace Patchbay

namespace Scene

variable {s t u : Scene} {owner : Nat → Option Nat} {c d : Cable} {h k : Nat}

/-- Scenes that are equal but for the routes, the tokens and the marks of their cables. -/
structure SharesGround (s t : Scene) : Prop where
  boxArena : t.boxArena = s.boxArena
  outline : t.outline = s.outline

theorem joint_newCable (s : Scene) (h : Nat) (outlet inlet : JackRef) (token : String) :
    joint (s.newCable h outlet inlet token) = (h, outlet, inlet) := by
  obtain ⟨handle, out, in_⟩ := newCable_ends s h outlet inlet token
  rw [joint, handle, out, in_]

theorem joint_refreshCable (c : Cable) (token : String) (start stop : Point) :
    joint (refreshCable c token start stop) = joint c := by
  obtain ⟨handle, out, in_⟩ := refreshCable_ends c token start stop
  rw [joint, handle, out, in_, joint]

theorem outline_addCable (s : Scene) (c : Cable) : (s.addCable c).outline
    = { s.outline with cables := s.outline.cables.insert (joint c) } := by
  simp only [outline, addCable, Arena.map_insert]

theorem outline_replaceCable (s : Scene) (k : Nat) (c : Cable) : (s.replaceCable k c).outline
    = { s.outline with cables := s.outline.cables.replace k (joint c) } := by
  simp only [outline, replaceCable, Arena.map_replace]

theorem outline_putCable (s : Scene) (k : Nat) (c : Cable) : (s.updateCable k fun _ => c).outline
    = { s.outline with cables := s.outline.cables.update k fun _ => joint c } := by
  have put := Arena.map_update_comm (f := fun _ => c) (g := fun _ => joint c) joint (fun _ => rfl)
    s.cableArena k
  simp only [outline, updateCable, put]

theorem cableOf?_eq (s : Scene) (h : Nat) :
    s.cableOf? h = (s.outline.cables.entries.find? (·.2.1 == h)).map (·.1) := by
  simp [cableOf?, cables_outline, joint, List.find?_map, Function.comp_def]

theorem map_cable? (s : Scene) (k : Nat) : (s.cable? k).map joint = s.outline.cables.get? k :=
  (s.cableArena.get?_map joint k).symm

namespace SharesGround

theorem refl (s : Scene) : s.SharesGround s := ⟨rfl, rfl⟩

theorem trans (first : s.SharesGround t) (second : t.SharesGround u) : s.SharesGround u :=
  ⟨second.boxArena.trans first.boxArena, second.outline.trans first.outline⟩

theorem ends? (same : s.SharesGround t) (joints : joint d = joint c) : t.ends? d = s.ends? c := by
  obtain ⟨-, ends⟩ := Prod.mk.inj joints
  obtain ⟨out, in_⟩ := Prod.mk.inj ends
  simp only [Scene.ends?, anchor?_congr same.boxArena, out, in_]

theorem cableOf? (same : s.SharesGround t) (h : Nat) : t.cableOf? h = s.cableOf? h := by
  rw [cableOf?_eq, cableOf?_eq, same.outline]

theorem map_cable? (same : s.SharesGround t) (k : Nat) :
    (t.cable? k).map joint = (s.cable? k).map joint := by
  rw [Scene.map_cable?, Scene.map_cable?, same.outline]

theorem addCable (same : s.SharesGround t) (joints : joint d = joint c) :
    (s.addCable c).SharesGround (t.addCable d) := by
  refine ⟨same.boxArena, ?_⟩
  rw [outline_addCable, outline_addCable, same.outline, joints]

theorem replaceCable (same : s.SharesGround t) (joints : joint d = joint c) (k : Nat) :
    (s.replaceCable k c).SharesGround (t.replaceCable k d) := by
  refine ⟨same.boxArena, ?_⟩
  rw [outline_replaceCable, outline_replaceCable, same.outline, joints]

theorem putCable (same : s.SharesGround t) (joints : joint d = joint c) (k : Nat) :
    (s.updateCable k fun _ => c).SharesGround (t.updateCable k fun _ => d) := by
  refine ⟨same.boxArena, ?_⟩
  rw [outline_putCable, outline_putCable, same.outline, joints]

theorem showWire (same : s.SharesGround t) (l l' : Listing) (owner : Nat → Option Nat)
    (report report' : SyncReport) (e : WireEntry) :
    (Scene.showWire l owner (s, report) e).1.SharesGround
      (Scene.showWire l' owner (t, report') e).1 := by
  simp only [Scene.showWire, resolveEnds?_congr same.boxArena, same.cableOf?]
  cases s.resolveEnds? owner e.ends with
  | none => exact same
  | some ends =>
    obtain ⟨outlet, inlet⟩ := ends
    have new (token token' : String) : joint (t.newCable e.handle outlet inlet token')
        = joint (s.newCable e.handle outlet inlet token) := by
      rw [joint_newCable, joint_newCable]
    cases s.cableOf? e.handle with
    | none => exact same.addCable (new _ _)
    | some key =>
      have joints := same.map_cable? key
      cases hs : s.cable? key with
      | none =>
        rw [hs, Option.map_none, Option.map_eq_none_iff] at joints
        simp only [hs, joints]
        exact same
      | some c =>
        rw [hs, Option.map_some] at joints
        obtain ⟨d, ht, joints⟩ := Option.map_eq_some_iff.1 joints
        obtain ⟨-, ends⟩ := Prod.mk.inj joints
        obtain ⟨out, in_⟩ := Prod.mk.inj ends
        simp only [hs, ht, out, in_, same.ends? joints]
        by_cases moved : c.outlet ≠ outlet ∨ c.inlet ≠ inlet
        · simp only [if_pos moved]
          exact same.replaceCable (new _ _) key
        · simp only [if_neg moved]
          cases s.ends? c with
          | none => exact same
          | some anchors =>
            refine same.putCable ?_ key
            rw [joint_refreshCable, joint_refreshCable, joints]

theorem showWires (same : s.SharesGround t) (l l' : Listing) (owner : Nat → Option Nat)
    (report report' : SyncReport) (es : List WireEntry) :
    (es.foldl (Scene.showWire l owner) (s, report)).1.SharesGround
      (es.foldl (Scene.showWire l' owner) (t, report')).1 := by
  induction es generalizing s t report report' with
  | nil => exact same
  | cons e es ih => exact ih (same.showWire l l' owner report report' e) _ _

end SharesGround

theorem listing_congr {a b : Contents} (alike : a.Alike b) :
    b.listing = { a.listing with token := b.listing.token } := by
  obtain ⟨nodes, ws⟩ := a
  obtain ⟨_, vs⟩ := b
  obtain ⟨rfl, bare⟩ := alike
  have wires : vs.map (fun w => WireEntry.mk w.handle w.ends)
      = ws.map fun w => WireEntry.mk w.handle w.ends := by
    have entries := congrArg (List.map fun x => WireEntry.mk x.1 x.2) bare.symm
    simpa [Wire.bare, Function.comp_def] using entries
  simp only [Contents.listing, wires]
  rfl

/-- Reconciling with documents that differ in their tokens comes to the same but for the routes. -/
theorem sharesGround_reconcile {a b : Contents} (alike : a.Alike b) (s : Scene) :
    (s.reconcile a.listing).1.SharesGround (s.reconcile b.listing).1 := by
  rw [listing_congr alike]
  exact (SharesGround.refl _).showWires _ _ _ _ _ _

theorem sharesGround_fresh {p q : Patch} (alike : p.Alike q.toContents) (settings : CanvasSettings) :
    (Canvas.fresh settings p).scene.SharesGround (Canvas.fresh settings q).scene := by
  have scene (r : Patch) : (Canvas.fresh settings r).scene
      = ({} : Selection).mark (({} : Scene).reconcile r.toContents.listing).1 := rfl
  have same := sharesGround_reconcile alike {}
  refine ⟨?_, ?_⟩
  · rw [scene, scene]
    simp only [Selection.mark, mapBoxes, mapCables, same.boxArena]
  · rw [scene, scene, outline_mark, outline_mark, same.outline]

end Scene

end Patchbay
