import Patchbay.Canvas.Basic
import Patchbay.Proofs.Recast
import Patchbay.Proofs.Travel

/-!
# Cables that follow

While boxes are held, a cable between them travels along, and one with a single end on them is
anchored anew at each stop. What a cable has come to after some stops is what the last of them makes
of it, unless its plan did not fit at one of them.
-/

namespace Patchbay

theorem Route.isSegmented_iff {r : Route} : r.isSegmented = true ↔ r ≠ straight := by
  cases r <;> simp [isSegmented]

namespace Scene

open Canvas (followMoved)

variable {s t u : Scene} {moved : List Nat} {stops : List Scene} {x y : Cable} {a b : Point}

theorem ends?_congr (anchors : ∀ ref, t.anchor? ref = s.anchor? ref)
    (ends : y.outlet = x.outlet ∧ y.inlet = x.inlet) : t.ends? y = s.ends? x := by
  simp only [ends?, anchors, ends]

theorem ends?_eq_some_iff : s.ends? x = some (a, b) ↔
    s.anchor? x.outlet = some a ∧ s.anchor? x.inlet = some b := by
  cases ha : s.anchor? x.outlet <;> cases hb : s.anchor? x.inlet <;> simp [ends?, ha, hb]

theorem isSome_ends? (s : Scene) (x : Cable) : (s.ends? x).isSome = s.isWired x := by
  have there (ref : JackRef) : (s.anchor? ref).isSome = (s.jack? ref).isSome := by
    rw [anchor?, jackBounds?, jack?, Option.isSome_map]
    cases s.box? ref.box with
    | none => rfl
    | some b => exact Option.isSome_map
  rw [isWired, ← there, ← there]
  cases ha : s.anchor? x.outlet <;> cases hb : s.anchor? x.inlet <;> simp [ends?, ha, hb]

theorem isSome_ends?_of_outline (same : t.outline = s.outline) (x : Cable) :
    (t.ends? x).isSome = (s.ends? x).isSome := by
  simp only [isSome_ends?, isWired, isSome_jack?_of_outline same]

theorem touchesAny_iff : x.touchesAny moved = true ↔
    moved.contains x.outlet.box = true ∨ moved.contains x.inlet.box = true := by
  simp only [Cable.touchesAny, Cable.touches, List.any_eq_true, Bool.or_eq_true, beq_iff_eq,
    List.contains_iff_mem]
  constructor
  · rintro ⟨k, hk, rfl | rfl⟩
    · exact Or.inl hk
    · exact Or.inr hk
  · rintro (hk | hk)
    · exact ⟨_, hk, Or.inl rfl⟩
    · exact ⟨_, hk, Or.inr rfl⟩

theorem followMoved_apart (apart : ¬x.touchesAny moved = true) :
    followMoved u moved x = x := by
  simp only [followMoved, apart, Bool.false_eq_true, if_false]

theorem route_followMoved_one (touches : x.touchesAny moved = true)
    (one : ¬(moved.contains x.outlet.box && moved.contains x.inlet.box) = true)
    (anchors : u.ends? x = some (a, b)) :
    (followMoved u moved x).route = x.route.reanchor a b := by
  simp only [followMoved, touches, if_true, anchors, one]
  cases x.route with
  | straight => rfl
  | segmented ps => cases ps <;> rfl

theorem route_followMoved_both {a' b' : Point}
    (both : (moved.contains x.outlet.box && moved.contains x.inlet.box) = true)
    (still : x.route.reanchor a b = x.route) (anchors : u.ends? x = some (a', b')) :
    (followMoved u moved x).route = x.route.shifted (a' - a) := by
  have touches := touchesAny_iff.2 (Or.inl (Bool.and_eq_true_iff.1 both).1)
  simp only [followMoved, touches, if_true, anchors, both]
  cases hroute : x.route with
  | straight => rfl
  | segmented ps =>
    rw [hroute] at still
    obtain ⟨qs, rfl⟩ := Route.head_of_reanchor still
    rfl

theorem followMoved_congr (boxes : ∀ k, t.box? k = u.box? k) (moved : List Nat) (x : Cable) :
    followMoved t moved x = followMoved u moved x := by
  have anchors : t.ends? x = u.ends? x :=
    ends?_congr (fun ref => by simp only [anchor?, jackBounds?, boxes]) ⟨rfl, rfl⟩
  simp only [followMoved, anchors]

theorem ends?_followMoved (s u : Scene) (moved : List Nat) (x : Cable) :
    s.ends? (followMoved u moved x) = s.ends? x :=
  ends?_congr (fun _ => rfl) (Canvas.followMoved_ends u moved x).2

theorem touchesAny_followMoved (u : Scene) (moved ks : List Nat) (x : Cable) :
    (followMoved u moved x).touchesAny ks = x.touchesAny ks := by
  obtain ⟨-, outlet, inlet⟩ := Canvas.followMoved_ends u moved x
  have touches : (followMoved u moved x).touches = x.touches :=
    funext fun k => by rw [Cable.touches, outlet, inlet, Cable.touches]
  rw [Cable.touchesAny, touches, Cable.touchesAny]

theorem followMoved_of_unanchored (lost : u.ends? x = none) (moved : List Nat) :
    followMoved u moved x = x := by
  simp only [followMoved, lost, ite_self]

theorem followMoved_of_straight (straight : x.route = .straight) (u : Scene) (moved : List Nat) :
    followMoved u moved x = x := by
  rw [Canvas.followMoved_eq]
  have same : (followMoved u moved x).route = x.route := by
    unfold followMoved
    split
    · split
      · rfl
      · simp [straight]
    · rfl
  rw [same]

theorem route_followMoved_whole
    (both : (moved.contains x.outlet.box && moved.contains x.inlet.box) = true)
    (anchors : u.ends? x = some (a, b)) {p : Point} {ps : List Point}
    (route : x.route = .segmented (p :: ps)) :
    (followMoved u moved x).route = .segmented ((p :: ps).map (· + (a - p))) := by
  have touches := touchesAny_iff.2 (Or.inl (Bool.and_eq_true_iff.1 both).1)
  simp only [followMoved, touches, if_true, anchors, both, route]

theorem followMoved_followMoved (anchored : (u.ends? x).isSome = (t.ends? x).isSome) :
    followMoved u moved (followMoved t moved x) = followMoved u moved x ∨
      (followMoved t moved x).route = .straight := by
  have of_route (same : (followMoved u moved (followMoved t moved x)).route
      = (followMoved u moved x).route) :
      followMoved u moved (followMoved t moved x) = followMoved u moved x := by
    rw [Canvas.followMoved_eq u moved (followMoved t moved x), same,
      Canvas.followMoved_eq u moved x, Canvas.followMoved_eq t moved x]
  by_cases touches : x.touchesAny moved = true
  · cases here : t.ends? x with
    | none => exact .inl (congrArg _ (followMoved_of_unanchored here moved))
    | some e =>
      obtain ⟨a, b⟩ := e
      obtain ⟨⟨a', b'⟩, there⟩ := Option.isSome_iff_exists.1 (anchored.trans (by rw [here]; rfl))
      have there' := (ends?_followMoved u t moved x).trans there
      obtain ⟨-, outlet, inlet⟩ := Canvas.followMoved_ends t moved x
      by_cases both : (moved.contains x.outlet.box && moved.contains x.inlet.box) = true
      · cases route : x.route with
        | straight => exact .inr (by rw [followMoved_of_straight route, route])
        | segmented ps =>
          cases ps with
          | nil =>
            right
            simp only [followMoved, touches, if_true, here, route]
            rfl
          | cons p ps =>
            -- Two shifts to the outlet in a row are the one to where the outlet is in the end.
            have first := route_followMoved_whole both here route
            have both' := both
            rw [← outlet, ← inlet] at both'
            have on (q : Point) : q + (a - p) + (a' - (p + (a - p))) = q + (a' - p) := by
              simp only [Point.ext_iff, Point.add_x, Point.add_y, Point.sub_x, Point.sub_y]
              omega
            refine .inl (of_route ?_)
            rw [route_followMoved_whole both there route, route_followMoved_whole both' there' first]
            simp only [List.map_cons, List.map_map, Function.comp_def, on]
      · -- Re-anchoring twice is re-anchoring once, unless the plan did not fit in between.
        have both' := both
        rw [← outlet, ← inlet] at both'
        have touches' := (touchesAny_followMoved t moved moved x).trans touches
        have first := route_followMoved_one touches both here
        rcases Route.reanchor_reanchor x.route a b a' b' with same | lost
        · refine .inl (of_route ?_)
          rw [route_followMoved_one touches' both' there', route_followMoved_one touches both there,
            first, same]
        · exact .inr (first.trans lost)
  · exact .inl (congrArg _ (followMoved_apart touches))

theorem followMoved_select (on : Bool) : followMoved u moved { x with selected := on }
    = { followMoved u moved x with selected := on } := by
  by_cases touches : x.touchesAny moved = true
  · have touches' : { x with selected := on }.touchesAny moved = true := touches
    have ends : u.ends? { x with selected := on } = u.ends? x := rfl
    simp only [followMoved, touches, touches', if_true, ends]
    cases u.ends? x with
    | none => rfl
    | some e =>
      cases x.route with
      | straight => rfl
      | segmented ps =>
        cases ps with
        | nil => rfl
        | cons p ps =>
          dsimp only
          split <;> rfl
  · have touches' : ¬{ x with selected := on }.touchesAny moved = true := touches
    rw [followMoved_apart touches, followMoved_apart touches']

theorem reanchor_followMoved (one : ¬(moved.contains x.outlet.box && moved.contains x.inlet.box) = true)
    (kept : (followMoved u moved x).route ≠ .straight) (a b : Point) :
    (followMoved u moved x).route.reanchor a b = x.route.reanchor a b := by
  by_cases touches : x.touchesAny moved = true
  · cases there : u.ends? x with
    | none => rw [followMoved_of_unanchored there]
    | some e =>
      rw [route_followMoved_one touches one there] at kept ⊢
      exact (Route.reanchor_reanchor _ _ _ a b).resolve_right kept
  · rw [followMoved_apart touches]

theorem exists_shifted_followMoved (u : Scene)
    (both : (moved.contains x.outlet.box && moved.contains x.inlet.box) = true)
    (still : x.route.reanchor a b = x.route) :
    ∃ d, (followMoved u moved x).route = x.route.shifted d := by
  cases there : u.ends? x with
  | none => exact ⟨.origin, by rw [followMoved_of_unanchored there, Route.shifted_origin]⟩
  | some e => exact ⟨_, route_followMoved_both both still there⟩

/-- A cable after some stops of the boxes. -/
def trail (moved : List Nat) (stops : List Scene) (x : Cable) : Cable :=
  stops.foldl (fun y u => followMoved u moved y) x

/-- Back from its stops a cable is as if it had stayed, or it has lost its route at one of them. -/
theorem followMoved_trail (anchored : ∀ u ∈ stops, (u.ends? x).isSome = (s.ends? x).isSome) :
    followMoved s moved (trail moved stops x)
      = if ∀ u ∈ stops, (followMoved u moved x).route ≠ .straight then followMoved s moved x
        else { x with route := .straight } := by
  induction stops generalizing x with
  | nil => simp [trail]
  | cons u stops ih =>
    obtain ⟨first, rest⟩ := List.forall_mem_cons.1 anchored
    have onward : followMoved s moved (trail moved (u :: stops) x)
        = followMoved s moved (trail moved stops (followMoved u moved x)) := rfl
    have anchored' : ∀ v ∈ stops, (v.ends? (followMoved u moved x)).isSome
        = (s.ends? (followMoved u moved x)).isSome := by
      simpa only [ends?_followMoved] using rest
    rw [onward, ih anchored']
    by_cases lost : (followMoved u moved x).route = .straight
    · have gone : followMoved u moved x = { x with route := .straight } := by
        rw [Canvas.followMoved_eq, lost]
      have none : ¬∀ v ∈ u :: stops, (followMoved v moved x).route ≠ .straight := fun each =>
        each u List.mem_cons_self lost
      rw [if_neg none, followMoved_of_straight lost, gone, ite_self]
    · have same {v : Scene} (there : (v.ends? x).isSome = (s.ends? x).isSome) :
          followMoved v moved (followMoved u moved x) = followMoved v moved x :=
        (followMoved_followMoved (there.trans first.symm)).resolve_right lost
      have each : (∀ v ∈ stops, (followMoved v moved (followMoved u moved x)).route ≠ .straight) ↔
          ∀ v ∈ u :: stops, (followMoved v moved x).route ≠ .straight := by
        rw [List.forall_mem_cons, and_iff_right lost]
        exact forall₂_congr fun v hv => by rw [same (rest v hv)]
      have base : { followMoved u moved x with route := Route.straight }
          = { x with route := Route.straight } := by
        rw [Canvas.followMoved_eq]
      simp only [each, same rfl, base]

theorem trail_eq (moved : List Nat) (stops : List Scene) (x : Cable) :
    trail moved stops x = { x with route := (trail moved stops x).route } := by
  refine List.foldlRecOn (motive := fun y : Cable => y = { x with route := y.route }) _ _ rfl ?_
  intro y same u _
  rw [Canvas.followMoved_eq, same]

theorem trail_concat (anchored : ∀ v ∈ stops, (v.ends? x).isSome = (u.ends? x).isSome) :
    trail moved (stops ++ [u]) x
      = if ∀ v ∈ stops, (followMoved v moved x).route ≠ .straight then followMoved u moved x
        else { x with route := .straight } := by
  rw [trail, List.foldl_append]
  exact followMoved_trail anchored

theorem trail_of_kept (anchored : ∀ u ∈ stops, (u.ends? x).isSome = (s.ends? x).isSome)
    (kept : ∀ u ∈ stops, (followMoved u moved x).route ≠ .straight) :
    trail moved stops x = x ∨ ∃ u ∈ stops, trail moved stops x = followMoved u moved x := by
  rcases List.eq_nil_or_concat' stops with rfl | ⟨stops, u, rfl⟩
  · exact Or.inl rfl
  · obtain ⟨before, last⟩ := List.forall_mem_append.1 anchored
    rw [List.forall_mem_append] at kept
    have last := last u (List.mem_singleton_self u)
    refine Or.inr ⟨u, List.mem_append_right _ (List.mem_singleton_self u), ?_⟩
    rw [trail_concat fun v hv => (before v hv).trans last.symm, if_pos kept.1]

theorem trail_of_lost (anchored : ∀ u ∈ stops, (u.ends? x).isSome = (s.ends? x).isSome)
    (mem : u ∈ stops) (lost : (followMoved u moved x).route = .straight) :
    (trail moved stops x).route = .straight := by
  rcases List.eq_nil_or_concat' stops with rfl | ⟨stops, v, rfl⟩
  · exact absurd mem List.not_mem_nil
  · obtain ⟨before, last⟩ := List.forall_mem_append.1 anchored
    have last := last v (List.mem_singleton_self v)
    rw [trail_concat fun w hw => (before w hw).trans last.symm]
    split
    · next kept =>
      rcases List.mem_append.1 mem with early | late
      · exact absurd lost (kept u early)
      · rw [← List.mem_singleton.1 late, lost]
    · rfl

/-- A cable that has a plan has one at each of some stops, too. -/
def Sustains (moved : List Nat) (stops : List Scene) (x : Cable) : Prop :=
  x.route.isSegmented = true → ∀ u ∈ stops, (followMoved u moved x).route.isSegmented = true

instance (moved : List Nat) (stops : List Scene) (x : Cable) : Decidable (Sustains moved stops x) :=
  inferInstanceAs (Decidable (_ → ∀ u ∈ stops, _))

theorem trail_of_straight (straight : x.route = .straight) : trail moved stops x = x := by
  refine List.foldlRecOn (motive := (· = x)) _ _ rfl fun y same u _ => ?_
  rw [same, followMoved_of_straight straight]

theorem Sustains.reanchor_trail (sustains : Sustains moved stops x)
    (still : x.route.reanchor a b = x.route)
    (anchored : ∀ u ∈ stops, (u.ends? x).isSome = (s.ends? x).isSome)
    (stays : ¬x.route.Strayed (trail moved stops x).route) (a' b' : Point) :
    (trail moved stops x).route.reanchor a' b' = x.route.reanchor a' b' := by
  by_cases straight : x.route = .straight
  · rw [trail_of_straight straight]
  · have planned : x.route.isSegmented = true := Route.isSegmented_iff.2 straight
    rcases trail_of_kept anchored fun u hu => Route.isSegmented_iff.1 (sustains planned u hu) with
      same | ⟨u, hu, same⟩
    · rw [same]
    · rw [same] at stays ⊢
      by_cases both : (moved.contains x.outlet.box && moved.contains x.inlet.box) = true
      · obtain ⟨d, shifted⟩ := exists_shifted_followMoved u both still
        rw [shifted] at stays ⊢
        exact (Route.slides_of_not_strayed still stays).reanchor_shifted a' b'
      · exact reanchor_followMoved both (Route.isSegmented_iff.1 (sustains planned u hu)) a' b'

theorem sustains_of_trail (anchored : ∀ u ∈ stops, (u.ends? x).isSome = (s.ends? x).isSome)
    (kept : (trail moved stops x).route ≠ .straight) : Sustains moved stops x :=
  fun _ _ hu => Route.isSegmented_iff.2 fun lost => kept (trail_of_lost anchored hu lost)

/-- Led through other anchors and back, a cable has its route again exactly if it has kept its plan all
the way, and was not taken along whole otherwise than its token says. -/
theorem trail_returns_iff (still : x.route.reanchor a b = x.route)
    (anchored : ∀ u ∈ stops, (u.ends? x).isSome = (s.ends? x).isSome) (a' b' : Point) :
    ((trail moved stops x).route.reanchor a' b').reanchor a b = x.route ↔
      ¬x.route.Strayed (trail moved stops x).route ∧ Sustains moved stops x ∧
        ¬x.route.Misfits a' b' := by
  constructor
  · intro same
    by_cases straight : x.route = .straight
    · refine ⟨fun strayed => strayed.2 ?_, fun planned => ?_, fun misfits => misfits.1 straight⟩
      · rw [straight]
        trivial
      · exact absurd straight (Route.isSegmented_iff.1 planned)
    · have sustains : Sustains moved stops x := by
        refine sustains_of_trail anchored fun lost => straight ?_
        rw [← same, lost, Route.reanchor_straight, Route.reanchor_straight]
      have stays : ¬x.route.Strayed (trail moved stops x).route := by
        rintro ⟨shifted, other⟩
        rw [shifted] at same
        refine other ((Route.reanchor_shifted_eq_iff (still.symm ▸ straight)).1 ?_)
        rcases Route.reanchor_reanchor (x.route.shifted (x.route.offset (trail moved stops x).route))
          a' b' a b with onward | lost
        · rw [← onward, same, still]
        · rw [lost, Route.reanchor_straight] at same
          exact absurd same.symm straight
      refine ⟨stays, sustains, fun misfits => straight ?_⟩
      rw [← same, sustains.reanchor_trail still anchored stays, misfits.2, Route.reanchor_straight]
  · rintro ⟨stays, sustains, fits⟩
    rw [sustains.reanchor_trail still anchored stays]
    by_cases straight : x.route = .straight
    · rw [straight, Route.reanchor_straight, Route.reanchor_straight]
    · have kept : x.route.reanchor a' b' ≠ .straight := fun lost => fits ⟨straight, lost⟩
      rw [(Route.reanchor_reanchor x.route a' b' a b).resolve_right kept, still]

/-- A scene whose cables have followed some boxes through some stops. -/
structure Trailed (s t : Scene) (moved : List Nat) (stops : List Scene) : Prop where
  cables : ∃ on : Nat → Cable → Bool, t.cableArena
    = s.cableArena.mapValues fun k x => { trail moved stops x with selected := on k x }
  anchored : ∀ u ∈ stops, ∀ x, (u.ends? x).isSome = (s.ends? x).isSome

theorem trailed_of_marks {on : Nat → Cable → Bool} (moved : List Nat)
    (marks : t.cableArena = s.cableArena.mapValues fun k x => { x with selected := on k x }) :
    Trailed s t moved [] :=
  ⟨⟨on, marks⟩, fun _ hu => absurd hu List.not_mem_nil⟩

theorem Trailed.refl (s : Scene) (moved : List Nat) : Trailed s s moved [] :=
  ⟨⟨fun _ x => x.selected, (Arena.mapValues_eq_self fun _ _ _ => rfl).symm⟩,
    fun _ hu => absurd hu List.not_mem_nil⟩

theorem trailed_idle (same : ∀ u ∈ stops, u = s) : Trailed s s [] stops where
  cables := by
    have idle (x : Cable) : trail [] stops x = x :=
      List.foldlRecOn (motive := (· = x)) _ _ rfl fun y same u _ =>
        (followMoved_apart (by simp [Cable.touchesAny])).trans same
    refine ⟨fun _ x => x.selected, (Arena.mapValues_eq_self fun k x _ => ?_).symm⟩
    rw [idle]
  anchored u hu _ := by rw [same u hu]

theorem Trailed.of_cables (trailed : Trailed s t moved stops)
    (same : u.cableArena = t.cableArena) : Trailed s u moved stops :=
  ⟨same ▸ trailed.cables, trailed.anchored⟩

theorem Trailed.exists_mem (trailed : Trailed s t moved stops) {e : Nat × Cable}
    (mem : e ∈ s.cables) :
    ∃ on, (e.1, { trail moved stops e.2 with selected := on }) ∈ t.cables := by
  obtain ⟨on, cables⟩ := trailed.cables
  refine ⟨on e.1 e.2, ?_⟩
  rw [Scene.cables, cables, Arena.entries_mapValues]
  exact Keyed.mem_mapValues.2 ⟨e.2, mem, rfl⟩

theorem Trailed.of_mem (trailed : Trailed s t moved stops) {e : Nat × Cable} (mem : e ∈ t.cables) :
    ∃ x on, (e.1, x) ∈ s.cables ∧ e.2 = { trail moved stops x with selected := on } := by
  obtain ⟨on, cables⟩ := trailed.cables
  rw [Scene.cables, cables, Arena.entries_mapValues] at mem
  obtain ⟨x, there, same⟩ := Keyed.mem_mapValues.1 mem
  exact ⟨x, _, there, same⟩

theorem Trailed.next {c : Canvas} (trailed : Trailed s t moved stops)
    (cables : c.scene.cableArena = t.cableArena)
    (outline : (c.follow moved).scene.outline = s.outline) :
    Trailed s (c.follow moved).scene moved (stops ++ [(c.follow moved).scene]) where
  cables := by
    obtain ⟨on, same⟩ := trailed.cables
    refine ⟨on, ?_⟩
    have followed : (c.follow moved).scene.cableArena
        = c.scene.cableArena.mapValues fun _ => followMoved c.scene moved := rfl
    have here : followMoved c.scene moved = followMoved (c.follow moved).scene moved :=
      funext fun x => followMoved_congr (fun _ => rfl) moved x
    rw [followed, here, cables, same, Arena.mapValues_mapValues]
    refine congrArg s.cableArena.mapValues (funext fun k => funext fun x => ?_)
    rw [followMoved_select, trail, trail, List.foldl_append]
    rfl
  anchored u hu x := by
    rcases List.mem_append.1 hu with old | new
    · exact trailed.anchored u old x
    · rw [List.mem_singleton.1 new]
      exact isSome_ends?_of_outline outline x

end Scene

theorem Canvas.recast_follow (c : Canvas) (moved : List Nat) :
    Scene.Recast c.scene (c.follow moved).scene (fun _ b => b) fun _ => followMoved c.scene moved where
  boxArena := (Scene.Recast.refl c.scene).boxArena
  tag _ _ := rfl
  cableArena := rfl
  ends _ x := followMoved_ends c.scene moved x
  layers := rfl

end Patchbay
