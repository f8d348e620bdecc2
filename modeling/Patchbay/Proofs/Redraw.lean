import Patchbay.Proofs.Anchor
import Patchbay.Proofs.Reconcile

/-!
# What drawing the wires leaves behind

Each entry whose ends are there is drawn with a new cable, or with the cable that it had, brought up
to date. The cables of all other handles are left as they were.
-/

namespace Patchbay.Scene

open Keyed (keys)

/-- A cable that an entry may be drawn with: its old one, if that has the same ends. -/
inductive Draft (old : Keyed Cable) (e : WireEntry) (token : String) (outlet inlet : JackRef)
    (start stop : Point) : Cable → Prop
  | fresh (new : ∀ y ∈ old, y.2.handle = e.handle → y.2.outlet ≠ outlet ∨ y.2.inlet ≠ inlet) :
      Draft old e token outlet inlet start stop
      { handle := e.handle, outlet := outlet, inlet := inlet, token := token
        route := Route.ofToken token start stop }
  | kept {k : Nat} {c : Cable} (mem : (k, c) ∈ old) (handle : c.handle = e.handle)
      (ends : c.outlet = outlet ∧ c.inlet = inlet) :
      Draft old e token outlet inlet start stop (refreshCable c token start stop)

/-- What some entries, drawn one after the other, make of a scene. -/
structure Redrawn (l : Listing) (owner : Nat → Option Nat) (s : Scene) (es : List WireEntry)
    (t : Scene) : Prop where
  same : t.boxArena = s.boxArena ∧ t.layers = s.layers
  drawn : ∀ e ∈ es, ∀ outlet inlet, s.resolveEnds? owner e.ends = some (outlet, inlet) →
    ∃ start stop, s.anchor? outlet = some start ∧ s.anchor? inlet = some stop ∧
      ∃ x ∈ t.cables,
        Draft s.cables e ((l.token e.handle).getD "") outlet inlet start stop x.2
  others : ∀ x, (∀ e ∈ es, x.2.handle = e.handle → s.resolveEnds? owner e.ends = none) →
    (x ∈ t.cables ↔ x ∈ s.cables)

variable {l : Listing} {owner : Nat → Option Nat} {s t u : Scene} {arena : Arena Box}
  {old : Keyed Cable} {e : WireEntry} {es : List WireEntry} {token : String} {c d : Cable}
  {outlet inlet ref : JackRef} {start stop : Point} {h j k index : Nat} {side : Side}

theorem refreshCable_refreshCable (c : Cable) (token : String) (start stop : Point) :
    refreshCable (refreshCable c token start stop) token start stop
      = refreshCable c token start stop := by
  by_cases new : token ≠ c.token ∧ c.unsaved = false
  · simp [refreshCable, new, Route.ofToken_eq, Route.reanchor_self]
  · simp [refreshCable, new, Route.reanchor_self]

theorem reanchor_of_refreshCable (same : refreshCable c token start stop = c) :
    c.route.reanchor start stop = c.route := by
  unfold refreshCable at same
  split at same
  · rw [← same]
    simp only [Route.ofToken_eq, Route.reanchor_self]
  · exact congrArg Cable.route same

namespace Draft

theorem ends (draft : Draft old e token outlet inlet start stop c) :
    c.handle = e.handle ∧ c.outlet = outlet ∧ c.inlet = inlet := by
  cases draft with
  | fresh => exact ⟨rfl, rfl, rfl⟩
  | @kept _ d _ handle ends =>
    obtain ⟨hhandle, houtlet, hinlet⟩ := refreshCable_ends d token start stop
    exact ⟨hhandle.trans handle, houtlet.trans ends.1, hinlet.trans ends.2⟩

theorem refreshCable_eq (draft : Draft old e token outlet inlet start stop c) :
    refreshCable c token start stop = c := by
  cases draft with
  | fresh => simp [refreshCable, Route.ofToken_eq, Route.reanchor_self]
  | kept _ _ _ => exact refreshCable_refreshCable _ token start stop

theorem reanchor_eq (draft : Draft old e token outlet inlet start stop c) :
    c.route.reanchor start stop = c.route :=
  reanchor_of_refreshCable draft.refreshCable_eq

end Draft

theorem newCable_eq (ho : s.anchor? outlet = some start) (hi : s.anchor? inlet = some stop) :
    s.newCable h outlet inlet token
      = { handle := h, outlet := outlet, inlet := inlet, token := token
          route := Route.ofToken token start stop } := by
  have hends : s.ends? { handle := h, outlet := outlet, inlet := inlet, token := token }
      = some (start, stop) := ends?_of_anchors ho hi
  simp only [newCable, hends]

theorem anchor?_congr (same : t.boxArena = s.boxArena) (ref : JackRef) :
    t.anchor? ref = s.anchor? ref := by
  simp only [anchor?, jackBounds?, box?, same]

theorem mem_replace_iff (nodup : (keys old).Nodup) (mem : (k, c) ∈ old) (same : d.handle = c.handle)
    {x : Nat × Cable} (other : x.2.handle ≠ c.handle) :
    x ∈ Keyed.replace old k j d ↔ x ∈ old := by
  constructor
  · intro hx
    rcases Keyed.of_mem_replace hx with ⟨hx, -⟩ | rfl
    · exact hx
    · exact absurd same other
  · intro hx
    refine Keyed.mem_replace_of_ne j d hx ?_
    rintro rfl
    exact other (congrArg Cable.handle (Keyed.eq_of_mem nodup hx mem))

theorem redrawn_single (ends : s.resolveEnds? owner e.ends = some (outlet, inlet))
    (ho : s.anchor? outlet = some start) (hi : s.anchor? inlet = some stop)
    (same : t.boxArena = s.boxArena ∧ t.layers = s.layers)
    (mem : (k, c) ∈ t.cables)
    (draft : Draft s.cables e ((l.token e.handle).getD "") outlet inlet start stop c)
    (others : ∀ x : Nat × Cable, x.2.handle ≠ e.handle → (x ∈ t.cables ↔ x ∈ s.cables)) :
    Redrawn l owner s [e] t := by
  refine ⟨same, ?_, ?_⟩
  · intro f hf outlet' inlet' ends'
    obtain rfl := List.mem_singleton.1 hf
    obtain ⟨rfl, rfl⟩ := Prod.mk.inj (Option.some.inj (ends.symm.trans ends'))
    exact ⟨start, stop, ho, hi, (k, c), mem, draft⟩
  · intro x hx
    refine others x fun named => ?_
    exact absurd ((hx e (List.mem_singleton_self e) named).symm.trans ends) (by simp)

theorem Wiring.redrawn_showWire (wiring : Wiring l arena s) (names : Names owner arena.entries)
    (report : SyncReport) : Redrawn l owner s [e] (Scene.showWire l owner (s, report) e).1 := by
  obtain rfl := wiring.boxes
  have names : Names owner s.boxes := names
  have stroke := showWire_stroke (l := l) names report e
  generalize Scene.showWire l owner (s, report) e = result at stroke ⊢
  have anchors {outlet inlet : JackRef}
      (found : s.resolveEnds? owner e.ends = some (outlet, inlet)) :
      ∃ start stop, s.anchor? outlet = some start ∧ s.anchor? inlet = some stop := by
    obtain ⟨hout, hin⟩ := names.joins found
    obtain ⟨start, ho⟩ := hout.exists_anchor
    obtain ⟨stop, hi⟩ := hin.exists_anchor
    exact ⟨start, stop, ho, hi⟩
  cases stroke with
  | skipped ends =>
    refine ⟨⟨rfl, rfl⟩, ?_, fun _ _ => Iff.rfl⟩
    intro f hf outlet inlet found
    obtain rfl := List.mem_singleton.1 hf
    exact absurd (ends.symm.trans found) (by simp)
  | @added outlet inlet ends fresh =>
    obtain ⟨start, stop, ho, hi⟩ := anchors ends
    rw [newCable_eq ho hi]
    refine redrawn_single (k := s.nextCable) ends ho hi ⟨rfl, rfl⟩ ?_
      (.fresh fun y hy named => absurd named (fresh y hy)) ?_
    · rw [cables_addCable wiring.cables]
      exact List.mem_append_right _ (List.mem_singleton_self _)
    · intro x other
      rw [cables_addCable wiring.cables]
      refine List.mem_append.trans (or_iff_left ?_)
      intro hx
      rw [List.mem_singleton.1 hx] at other
      exact other rfl
  | @replaced outlet inlet k c ends mem named moved =>
    obtain ⟨start, stop, ho, hi⟩ := anchors ends
    rw [newCable_eq ho hi]
    refine redrawn_single (k := s.nextCable) ends ho hi ⟨rfl, rfl⟩ ?_
      (.fresh fun y hy named' => ?_) ?_
    · rw [cables_replaceCable wiring.cables (cable?_of_mem mem)]
      exact Keyed.mem_replace_self _ _ mem
    · obtain rfl := List.inj_on_of_nodup_map wiring.handles hy mem (named'.trans named.symm)
      exact moved
    · intro x other
      rw [cables_replaceCable wiring.cables (cable?_of_mem mem)]
      exact mem_replace_iff wiring.nodup mem named.symm (named ▸ other)
  | @refreshed k c start stop ends mem named held =>
    obtain ⟨start', stop', ho, hi⟩ := anchors ends
    obtain ⟨rfl, rfl⟩ := Prod.mk.inj (Option.some.inj (held.symm.trans (ends?_of_anchors ho hi)))
    have hcables : (s.updateCable k fun _ =>
        refreshCable c ((l.token e.handle).getD "") start stop).cables = Keyed.replace s.cables
          k k (refreshCable c ((l.token e.handle).getD "") start stop) :=
      (cables_updateCable s k _).trans (Keyed.update_const _ _ _)
    refine redrawn_single (k := k) ends ho hi ⟨rfl, rfl⟩ ?_ (.kept mem named ⟨rfl, rfl⟩) ?_
    · rw [hcables]
      exact Keyed.mem_replace_self _ _ mem
    · intro x other
      rw [hcables]
      exact mem_replace_iff wiring.nodup mem (refreshCable_ends c _ _ _).1 (named ▸ other)

/-- What is drawn of one entry stays while entries of other handles are drawn. -/
theorem Redrawn.cons (first : Redrawn l owner s [e] t) (rest : Redrawn l owner t es u)
    (distinct : ∀ f ∈ es, f.handle ≠ e.handle) : Redrawn l owner s (e :: es) u := by
  have resolves (ends : Ends) : t.resolveEnds? owner ends = s.resolveEnds? owner ends :=
    resolveEnds?_congr first.same.1 ends
  refine ⟨⟨rest.same.1.trans first.same.1, rest.same.2.trans first.same.2⟩, ?_, ?_⟩
  · intro f hf outlet inlet ends
    rcases List.mem_cons.1 hf with rfl | hf
    · obtain ⟨start, stop, ho, hi, x, hx, draft⟩ :=
        first.drawn f List.mem_cons_self outlet inlet ends
      refine ⟨start, stop, ho, hi, x, (rest.others x ?_).2 hx, draft⟩
      intro g hg named
      exact absurd (named.symm.trans draft.ends.1) (distinct g hg)
    · obtain ⟨start, stop, ho, hi, ⟨j, d⟩, hx, draft⟩ :=
        rest.drawn f hf outlet inlet ((resolves _).trans ends)
      rw [anchor?_congr first.same.1] at ho hi
      refine ⟨start, stop, ho, hi, (j, d), hx, ?_⟩
      -- The cable that the entry had was not touched by the first entry.
      cases draft with
      | fresh new =>
        refine .fresh fun y hy named => new y ((first.others y fun g hg same => ?_).2 hy) named
        rw [List.mem_singleton.1 hg] at same
        exact absurd (named.symm.trans same) (distinct f hf)
      | @kept k c mem handle ends =>
        refine .kept ((first.others (k, c) ?_).1 mem) handle ends
        intro g hg named
        rw [List.mem_singleton.1 hg] at named
        exact absurd (handle.symm.trans named) (distinct f hf)
  · intro x hx
    obtain ⟨hfirst, hrest⟩ := List.forall_mem_cons.1 hx
    refine (rest.others x ?_).trans (first.others x ?_)
    · intro f hf named
      exact (resolves _).trans (hrest f hf named)
    · intro f hf named
      rw [List.mem_singleton.1 hf] at named ⊢
      exact hfirst named

theorem Wiring.redrawn (wiring : Wiring l arena s) (names : Names owner arena.entries)
    (listed : ∀ e ∈ es, l.hasWire e.handle = true)
    (distinct : (es.map (·.handle)).Nodup) (report : SyncReport) :
    Redrawn l owner s es (es.foldl (Scene.showWire l owner) (s, report)).1 := by
  induction es generalizing s report with
  | nil => exact ⟨⟨rfl, rfl⟩, fun e he => absurd he List.not_mem_nil, fun _ _ => Iff.rfl⟩
  | cons e es ih =>
    obtain ⟨hlisted, hrest⟩ := List.forall_mem_cons.1 listed
    rw [List.map_cons, List.nodup_cons] at distinct
    have step := wiring.showWire names hlisted report
    have first := wiring.redrawn_showWire (e := e) names report
    rw [List.foldl_cons]
    generalize Scene.showWire l owner (s, report) e = t at step first
    obtain ⟨t, report'⟩ := t
    refine first.cons (ih step.wiring hrest distinct.2 report') ?_
    intro f hf same
    exact distinct.1 (same ▸ List.mem_map_of_mem hf)

end Patchbay.Scene
