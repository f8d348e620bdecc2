import Patchbay.Proofs.Replica

/-!
# Cables that stay with their wires

A canvas and its patch can go their own ways for a while: boxes are typed, dropped and committed, and
wires are taken out and put back. A cable of a handle that stands for one wire joins what that wire
joins all the while, so the next pass finds it and draws it anew.
-/

namespace Patchbay

namespace Scene

variable {s t : Scene} {p q : Patch} {h i : Nat} {side : Side} {ref : JackRef} {bs bs' : Keyed Box}

/-- The boxes that have a handle keep it, with as many jacks as they had. -/
def Retains (bs bs' : Keyed Box) : Prop :=
  ∀ k b h, (k, b) ∈ bs → b.handle = some h → ∃ b', (k, b') ∈ bs' ∧ b'.handle = some h ∧
    ∀ side, (b'.jacks side).length = (b.jacks side).length

theorem Terminal.retained (terminal : Terminal bs h side i ref) (retains : Retains bs bs') :
    Terminal bs' h side i ref := by
  obtain ⟨k, b, mem, named, hlt, rfl⟩ := terminal
  obtain ⟨b', mem', named', length⟩ := retains k b h mem named
  exact ⟨k, b', mem', named', (length side).symm ▸ hlt, rfl⟩

theorem Loyal.retained (loyal : Loyal p s h) (cables : ∀ y ∈ t.cables, ∃ x ∈ s.cables,
      x.2.handle = y.2.handle ∧ x.2.outlet = y.2.outlet ∧ x.2.inlet = y.2.inlet)
    (retains : Retains s.boxes t.boxes) : Loyal p t h where
  coherent := loyal.coherent
  held y hy named := by
    obtain ⟨x, hx, handle, outlet, inlet⟩ := cables y hy
    obtain ⟨low, e, ⟨hout, hin⟩, only⟩ := loyal.held x hx (handle.trans named)
    refine ⟨low, e, ⟨?_, ?_⟩, only⟩
    · exact outlet ▸ hout.retained retains
    · exact inlet ▸ hin.retained retains

theorem retains_of_outline (same : t.outline = s.outline) : Retains s.boxes t.boxes := by
  intro k b h mem named
  have tagged : (k, b.tag) ∈ t.outline.boxes.entries := by
    rw [same, entries_outline]
    exact List.mem_map_of_mem (f := fun e : Nat × Box => (e.1, e.2.tag)) mem
  rw [entries_outline] at tagged
  obtain ⟨⟨_, b'⟩, mem', found⟩ := List.mem_map.1 tagged
  obtain ⟨rfl, tag⟩ := Prod.mk.inj found
  refine ⟨b', mem', (congrArg Box.Tag.handle tag).trans named, fun side => ?_⟩
  rw [← Box.jacks_tag, ← Box.jacks_tag]
  exact congrArg (Box.Tag.jacks · side) tag

theorem Joins.of_outline {x : Cable} {ends : Ends} (joins : Joins s.boxes x ends)
    (same : t.outline = s.outline) : Joins t.boxes x ends :=
  ⟨joins.1.retained (retains_of_outline same), joins.2.retained (retains_of_outline same)⟩

theorem retains_foldl_removeBox {ks : List Nat}
    (blank : ∀ k ∈ ks, ∀ b, s.box? k = some b → b.handle = none) :
    Retains s.boxes (ks.foldl Scene.removeBox s).boxes := by
  intro k b h mem named
  have stays : k ∉ ks := fun gone => by
    have none := blank k gone b (box?_of_mem mem)
    exact absurd (named.symm.trans none) (by simp)
  refine ⟨b, ?_, named, fun _ => rfl⟩
  rw [Scene.boxes_foldl_removeBox]
  exact List.mem_filter.2 ⟨mem, by simpa using stays⟩

theorem Loyal.of_outline (loyal : Loyal p s h) (same : t.outline = s.outline) : Loyal p t h := by
  refine loyal.retained (fun y hy => ?_) (retains_of_outline same)
  have told : (y.1, joint y.2) ∈ s.outline.cables.entries := by
    rw [← same, cables_outline]
    exact List.mem_map_of_mem (f := fun x : Nat × Cable => (x.1, joint x.2)) hy
  rw [cables_outline] at told
  obtain ⟨x, hx, found⟩ := List.mem_map.1 told
  exact ⟨x, hx, joint_eq_iff.1 (Prod.mk.inj found).2⟩

end Scene

namespace Canvas

open Scene (Loyal Retains Unambiguous)

variable {s t : Scene} {p q : Patch} {h : Nat}

theorem Outcome.loyal (outcome : Outcome s p t q) (wf : s.WellFormed) (bounded : p.Bounded)
    (follows : p.Follows q) (loyal : Loyal p s h) : Loyal q t h := by
  have same {u : Scene} (cables : u.cableArena = s.cableArena) : ∀ y ∈ u.cables, ∃ x ∈ s.cables,
      x.2.handle = y.2.handle ∧ x.2.outlet = y.2.outlet ∧ x.2.inlet = y.2.inlet :=
    fun y hy => ⟨y, Scene.cables_congr cables ▸ hy, rfl, rfl, rfl⟩
  suffices stays : Loyal p t h from stays.follows bounded follows
  cases outcome with
  | same outline => exact loyal.of_outline outline
  | reconciled outline =>
    obtain ⟨shown, u, report, course⟩ := wf.course (c := p.toContents) bounded.nodup
    exact (course.loyal wf bounded rfl loyal).of_outline outline
  | placed position outline =>
    have retains : Retains s.boxes (s.addBox (Box.blank position)).2.boxes := by
      rw [Scene.boxes_addBox wf.boxOrder]
      exact fun k b h mem named => ⟨b, List.mem_append_left _ mem, named, fun _ => rfl⟩
    exact (loyal.retained (same (u := (s.addBox _).2) rfl) retains).of_outline outline
  | dropped keys blank outline =>
    exact (loyal.retained (same (Scene.cableArena_foldl_removeBox keys s))
      (Scene.retains_foldl_removeBox blank)).of_outline outline
  | committed key handle text position made blank created closed outline =>
    have retains (f : Box → Box) : Retains s.boxes (s.updateBox key f).boxes := by
      intro k b h mem named
      have other : k ≠ key := by
        rintro rfl
        exact absurd (named.symm.trans (blank b (Scene.box?_of_mem mem))) (by simp)
      refine ⟨b, ?_, named, fun _ => rfl⟩
      rw [Scene.boxes_updateBox]
      exact Keyed.mem_update_of_ne f mem other
    exact (loyal.retained (same (u := s.updateBox key _) rfl) (retains _)).of_outline outline

/-- From the start, a cable of a handle that stands for one wire joins what that wire joins. -/
theorem loyal_play (settings : CanvasSettings) (loaded : p.Loaded) (unambiguous : Unambiguous p h)
    (events : List Event) :
    Loyal (play settings p events).2 (play settings p events).1.scene h := by
  have start : Joined (ofSettings settings) p := joined_play settings loaded []
  refine (List.foldlRecOn (motive := fun state : Canvas × Patch =>
    Joined state.1 state.2 ∧ Loyal state.2 state.1.scene h) _ _
    ⟨start, unambiguous.loyal loaded Scene.cables_empty⟩ ?_).2
  rintro ⟨c, q⟩ ⟨joined, loyal⟩ (made | m) -
  · have follows := (made.leads c q).follows joined.bounded
    exact ⟨joined.call made, (made.outcome c q).loyal joined.wf joined.bounded follows loyal⟩
  · exact ⟨joined.mutate m, loyal.follows joined.bounded (m.follows joined.bounded)⟩

end Canvas

end Patchbay
