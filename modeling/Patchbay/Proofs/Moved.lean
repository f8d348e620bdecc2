import Patchbay.Proofs.Haul
import Patchbay.Proofs.Loyalty
import Patchbay.Proofs.Retrace
import Patchbay.Proofs.Sync

/-!
# What a move shows, and what a new canvas shows after it

After a move has been saved, a canvas shows for each wire a cable between the jacks and with the token
that a new canvas of the same patch shows. Its route is the same exactly if its plan was not lost at a
stop, and was not taken along whole: the token of such a plan still says where it was.
-/

namespace Patchbay

open Keyed (keys)

namespace Scene

variable {c : Contents} {s t : Scene} {boxes : List Box} {h : Nat} {f : Nat → Box → Box}
  {g : Nat → Bool}

def route? (s : Scene) (h : Nat) : Option Route := (s.drawing? h).map (·.route)

/-- Whether a handle is shown with a plan, if its token has one. -/
def Planned (s : Scene) (h : Nat) : Prop :=
  ∀ d ∈ s.drawing? h, (Route.raw d.token).isSegmented = true → d.route.isSegmented = true

/-- Whether a plan was not taken along whole, otherwise than its token says, from one scene to the
other. -/
def Tethered (s t : Scene) (h : Nat) : Prop :=
  ∀ d ∈ s.drawing? h, ∀ d' ∈ t.drawing? h, ¬d.route.Strayed d'.route

instance (s : Scene) (h : Nat) : Decidable (s.Planned h) :=
  inferInstanceAs (Decidable (∀ d ∈ s.drawing? h, _ → _))

instance (s t : Scene) (h : Nat) : Decidable (s.Tethered t h) :=
  inferInstanceAs (Decidable (∀ d ∈ s.drawing? h, ∀ d' ∈ t.drawing? h, _))

theorem route?_of_mem (nodup : (s.cables.map (·.2.handle)).Nodup) {x : Nat × Cable}
    (mem : x ∈ s.cables) (named : x.2.handle = h) : s.route? h = some x.2.route := by
  rw [route?, drawing?_of_mem nodup mem named]
  rfl

theorem drawing?_of_not_mem (none : ∀ x ∈ s.cables, x.2.handle ≠ h) : s.drawing? h = .none :=
  Option.map_eq_none_iff.2 (List.find?_eq_none.2 fun x hx named => none x hx (by simpa using named))

theorem planned_iff (nodup : (s.cables.map (·.2.handle)).Nodup) {x : Nat × Cable}
    (mem : x ∈ s.cables) (named : x.2.handle = h) :
    s.Planned h ↔ ((Route.raw x.2.token).isSegmented = true → x.2.route.isSegmented = true) := by
  rw [Planned, drawing?_of_mem nodup mem named]
  simp only [Option.mem_def, Option.some.injEq, forall_eq']

theorem tethered_iff (nodup : (s.cables.map (·.2.handle)).Nodup)
    (nodup' : (t.cables.map (·.2.handle)).Nodup) {x y : Nat × Cable} (mem : x ∈ s.cables)
    (named : x.2.handle = h) (mem' : y ∈ t.cables) (named' : y.2.handle = h) :
    s.Tethered t h ↔ ¬x.2.route.Strayed y.2.route := by
  rw [Tethered, drawing?_of_mem nodup mem named, drawing?_of_mem nodup' mem' named']
  simp only [Option.mem_def, Option.some.injEq, forall_eq']

theorem Marked.drawing? (marked : Marked s t f g) (h : Nat) : t.drawing? h = s.drawing? h := by
  have sign (ref : JackRef) : t.sign ref = s.sign ref := by
    rw [Scene.sign, Scene.sign, marked.recast.box?]
    cases s.box? ref.box with
    | none => rfl
    | some b => simp only [Option.map_some, Option.bind_some, marked.recast.handle]
  simp only [Scene.drawing?, marked.recast.cables, Keyed.mapValues, List.find?_map,
    Function.comp_def, Option.map_map, sign]

theorem Pictures.of_mem {G : Route → String → Point → Point → Prop}
    (pictures : Pictures c boxes G h (s.drawing? h)) (nodup : (s.cables.map (·.2.handle)).Nodup)
    {x : Nat × Cable} (hx : x ∈ s.cables) (named : x.2.handle = h) :
    ∃ w a b, span? c boxes h = some (w, a, b) ∧ x.2.token = w.token ∧ G x.2.route w.token a b := by
  rw [drawing?_of_mem nodup hx named] at pictures
  unfold Pictures at pictures
  split at pictures
  · exact absurd pictures (by simp)
  · next w a b spans =>
    obtain ⟨route, good, same⟩ := pictures
    obtain ⟨-, -, token, rfl⟩ := Drawing.mk.inj (Option.some.inj same)
    exact ⟨w, a, b, spans, token, good⟩

end Scene

theorem Patch.Rearranged.span?_ne_none {p q : Patch} {h : Nat} (rearranged : p.Rearranged q)
    (nodup : (Keyed.keys p.nodes).Nodup)
    (spans : Scene.span? p.toContents (Scene.boxesOf p.nodes) h ≠ none) :
    Scene.span? q.toContents (Scene.boxesOf q.nodes) h ≠ none := by
  obtain ⟨⟨w, a, b⟩, spans⟩ := Option.ne_none_iff_exists'.1 spans
  obtain ⟨hw, ha, hb⟩ := Scene.span?_eq_some_iff.1 spans
  have stays {g : Nat} {side : Side} {i : Nat} {a : Point}
      (there : Scene.site? (Scene.boxesOf p.nodes) g side i = some a) :
      ∃ a, Scene.site? (Scene.boxesOf q.nodes) g side i = some a := by
    have known := (Scene.isSome_site?_boxesOf nodup).1 (Option.isSome_iff_exists.2 ⟨a, there⟩)
    have signals := rearranged.signals g side
    rw [Contents.node?, Contents.node?] at signals
    rw [← signals] at known
    exact Option.isSome_iff_exists.1
      ((Scene.isSome_site?_boxesOf (rearranged.keys.symm ▸ nodup)).2 known)
  obtain ⟨a', ha'⟩ := stays ha
  obtain ⟨b', hb'⟩ := stays hb
  have hw' : q.toContents.wire? h = some w := by
    rw [Contents.wire?, rearranged.wires]
    exact hw
  exact Option.ne_none_iff_exists'.2 ⟨_, Scene.span?_eq_some_iff.2 ⟨hw', ha', hb'⟩⟩

namespace Canvas

open Scene (Drawing Joins Sustains boxesOf span? trail)

variable {c t : Canvas} {p q : Patch} {m : Haul} {d a b : Point} {h : Nat} {w : Wire}
  {result : Except EditError Point} {stops : List Scene}

def saved (c : Canvas) (p : Patch) : Canvas × Patch :=
  let (c, p, _) := c.flushTokens p
  let (c, p, _) := c.sync p
  (c, p)

def fresh (settings : CanvasSettings) (p : Patch) : Canvas := ((ofSettings settings).sync p).1

/-- Just brought in line with a patch, with nothing held and nothing that waits to be written, and
leaving it to the user to route cables. -/
structure Ready (c : Canvas) (p : Patch) : Prop where
  synced : ∃ c₀ p₀, Reached c₀ ∧ (keys p₀.nodes).Nodup ∧ (c₀.sync p₀).1 = c ∧ (c₀.sync p₀).2.1 = p
  free : c.drag = .none
  quiet : c.queue.isEmpty = true
  manual : c.settings.routing.autoRouteOnOverlap = false

/-- A canvas after a move and the saving of it, and a new canvas of the same patch. -/
def afterMove (c : Canvas) (p : Patch) (m : Haul) (settings : CanvasSettings) : Canvas × Canvas :=
  let (c, p, _) := c.move p m
  let (c, p) := c.saved p
  (c, fresh settings p)

theorem drawing?_sync (c : Canvas) (p : Patch) (h : Nat) :
    (c.sync p).1.scene.drawing? h = (c.scene.reconcile p.toContents.listing).1.drawing? h := by
  obtain ⟨f, g, marked⟩ := marked_sync c p
  exact marked.drawing? h

theorem drawing?_fresh_congr (settings : CanvasSettings) (same : q.toContents = p.toContents)
    (h : Nat) : (fresh settings q).scene.drawing? h = (fresh settings p).scene.drawing? h := by
  rw [fresh, fresh, drawing?_sync, drawing?_sync, same]

theorem pictures_fresh (settings : CanvasSettings) (nodup : (keys p.nodes).Nodup) (h : Nat) :
    Scene.Pictures p.toContents (boxesOf p.nodes)
      (fun r token a b => r = (Route.raw token).reanchor a b) h
      ((fresh settings p).scene.drawing? h) := by
  rw [fresh, drawing?_sync]
  exact Scene.pictures_empty nodup h

theorem mem_markSaved {y : Nat × Cable} (mem : y ∈ t.markSaved.scene.cables) :
    ∃ x, (y.1, x) ∈ t.scene.cables ∧ y.2 = { x with unsaved := false } := by
  have cables := t.scene.cables_mapCables fun _ x => { x with unsaved := false }
  exact Keyed.mem_mapValues.1 (cables ▸ mem)

theorem drawing?_saved (quiet : t.queue.isEmpty = true) (q : Patch) (h : Nat) :
    (t.saved q).1.scene.drawing? h
      = (t.markSaved.scene.reconcile q.toContents.listing).1.drawing? h ∧
    (t.saved q).2.toContents = q.toContents := by
  simp only [saved, flushTokens, WriteQueue.flush, quiet, if_true]
  exact ⟨drawing?_sync _ q h, rfl⟩

theorem exists_cable_sync (reached : Reached c) (nodup : (keys p.nodes).Nodup) {w : Wire}
    {a b : Point} (spans : Scene.span? p.toContents (boxesOf p.nodes) h = some (w, a, b)) :
    ∃ x ∈ (c.sync p).1.scene.cables, x.2.handle = h ∧ Joins (c.sync p).1.scene.boxes x.2 w.ends ∧
      (c.sync p).1.scene.ends? x.2 = some (a, b) ∧ Scene.refreshCable x.2 w.token a b = x.2 := by
  obtain ⟨f, g, marked⟩ := marked_sync c p
  obtain ⟨owner, rewired⟩ :=
    reached.regular.rewired (c := p.toContents) reached.numbered nodup
  obtain ⟨e, outlet, inlet, y, hy, old, -, same, ends, ha, hb, draft⟩ :=
    rewired.exists_draft nodup spans
  obtain ⟨named, houtlet, hinlet⟩ := draft.ends
  have joins : Joins (c.scene.reconcile p.toContents.listing).1.boxes y.2 w.ends := by
    rw [Joins, houtlet, hinlet]
    exact rewired.names.joins ends
  refine ⟨(y.1, { y.2 with selected := g y.1 }), ?_, named.trans same,
    joins.of_outline marked.recast.outline, Scene.ends?_of_anchors ?_ ?_, ?_⟩
  · rw [marked.recast.cables]
    exact Keyed.mem_mapValues.2 ⟨y.2, hy, rfl⟩
  · rw [marked.anchor?, houtlet, ha]
  · rw [marked.anchor?, hinlet, hb]
  · rw [Scene.refreshCable_select, draft.refreshCable_eq]

theorem Ready.reached (ready : Ready c p) : Reached c := by
  obtain ⟨c₀, p₀, reached, -, rfl, -⟩ := ready.synced
  exact reached.call p₀ .sync

theorem Ready.nodup (ready : Ready c p) : (keys p.nodes).Nodup := by
  obtain ⟨c₀, p₀, -, nodup, -, rfl⟩ := ready.synced
  exact nodup

theorem Ready.joins (ready : Ready c p) {x : Nat × Cable} (hx : x ∈ c.scene.cables)
    (spans : span? p.toContents (boxesOf p.nodes) x.2.handle = some (w, a, b)) :
    Joins c.scene.boxes x.2 w.ends ∧ x.2.route.reanchor a b = x.2.route := by
  have regular := ready.reached.regular
  obtain ⟨c₀, p₀, reached, nodup, rfl, rfl⟩ := ready.synced
  obtain ⟨y, hy, named, joins, -, fixed⟩ := exists_cable_sync reached nodup spans
  obtain rfl := List.inj_on_of_nodup_map regular.cableHandles hy hx named
  exact ⟨joins, Scene.reanchor_of_refreshCable fixed⟩

/-- Whether a move leaves a cable with the route that its token says: it shows a plan if the token has
one, keeps it at each stop, and is not taken along whole otherwise. -/
def Haul.Faithful (m : Haul) (c : Canvas) (p : Patch) (h : Nat) : Prop :=
  c.scene.Planned h ∧ c.scene.Tethered (c.move p m).1.scene h ∧
    ∀ x ∈ c.scene.cables, x.2.handle = h → Sustains (c.moved m) (c.stops p m) x.2

instance (m : Haul) (c : Canvas) (p : Patch) (h : Nat) : Decidable (m.Faithful c p h) :=
  inferInstanceAs (Decidable (_ ∧ _ ∧ ∀ x ∈ c.scene.cables, _ → _))

theorem faithful_of_not_mem (none : ∀ x ∈ c.scene.cables, x.2.handle ≠ h) : m.Faithful c p h := by
  have drawn := Scene.drawing?_of_not_mem none
  refine ⟨fun d there => ?_, fun d there => ?_, fun x hx named => absurd named (none x hx)⟩
  · exact absurd (drawn.symm.trans there) (by simp)
  · exact absurd (drawn.symm.trans there) (by simp)

theorem Landed.exists_cable (landed : Landed c p m t q result stops) {y : Nat × Cable}
    (hy : y ∈ t.markSaved.scene.cables) : ∃ x on, (y.1, x) ∈ c.scene.cables ∧
      x.handle = y.2.handle ∧ y.2 = { x with
        route := (trail (c.moved m) stops x).route
        selected := on
        unsaved := false } := by
  obtain ⟨z, hz, marked⟩ := mem_markSaved hy
  obtain ⟨x, on, hx, same⟩ := landed.trailed.of_mem hz
  obtain rfl : z = _ := same
  have same := marked
  rw [Scene.trail_eq] at same
  exact ⟨x, on, hx, by rw [same], same⟩

/-- A handle is shown as its first wire says, but the plan may be lost. -/
def Renders (c : Canvas) (p : Patch) (h : Nat) : Prop :=
  Scene.Pictures p.toContents (boxesOf p.nodes)
    (fun r token a b => r = (Route.raw token).reanchor a b ∨ r = .straight ∧ True) h
    (c.scene.drawing? h)

/-- Before a move, a cable is at its anchors, and its route is what its token means, or was lost. -/
theorem Ready.exists_span (ready : Ready c p) (before : c.Renders p h) {x : Nat × Cable}
    (hx : x ∈ c.scene.cables) (named : x.2.handle = h) :
    ∃ w a b, span? p.toContents (boxesOf p.nodes) h = some (w, a, b) ∧ x.2.token = w.token ∧
      x.2.route.reanchor a b = x.2.route ∧
      (x.2.route = (Route.raw w.token).reanchor a b ∨ x.2.route = .straight) := by
  obtain ⟨w, a, b, spans, token, route⟩ :=
    Scene.Pictures.of_mem before ready.reached.regular.cableHandles hx named
  obtain ⟨-, still⟩ := ready.joins hx (named ▸ spans)
  exact ⟨w, a, b, spans, token, still, route.imp_right And.left⟩

theorem Landed.tethered_iff (landed : Landed c p m t q result stops) (ready : Ready c p)
    {x : Nat × Cable} (hx : x ∈ c.scene.cables) (named : x.2.handle = h) :
    c.scene.Tethered t.scene h ↔ ¬x.2.route.Strayed (trail (c.moved m) stops x.2).route := by
  have regular := ready.reached.regular
  obtain ⟨on, hy⟩ := landed.trailed.exists_mem hx
  exact Scene.tethered_iff regular.cableHandles (regular.of_outline landed.outline).cableHandles hx
    named hy (by rw [Scene.trail_eq]; exact named)

theorem Landed.reanchor_trail (landed : Landed c p m (c.move p m).1 q result (c.stops p m))
    (ready : Ready c p) (before : c.Renders p h) (faithful : m.Faithful c p h) {x : Nat × Cable}
    (hx : x ∈ c.scene.cables) (named : x.2.handle = h) (a b : Point) :
    (trail (c.moved m) (c.stops p m) x.2).route.reanchor a b
      = (Route.raw x.2.token).reanchor a b := by
  obtain ⟨planned, tethered, sustains⟩ := faithful
  obtain ⟨w, a', b', -, token, still, route⟩ := ready.exists_span before hx named
  have anchored u hu := landed.trailed.anchored u hu x.2
  have stays := (landed.tethered_iff ready hx named).1 tethered
  rw [(sustains x hx named).reanchor_trail still anchored stays, token]
  by_cases bare : Route.raw w.token = .straight
  · have straight : x.2.route = .straight := by
      rcases route with same | lost
      · rw [same, bare, Route.reanchor_straight]
      · exact lost
    rw [bare, straight]
  · have kept : x.2.route ≠ .straight := Route.isSegmented_iff.1
      ((Scene.planned_iff ready.reached.regular.cableHandles hx named).1 planned
        (token ▸ Route.isSegmented_iff.2 bare))
    have same := route.resolve_right kept
    rw [same] at kept ⊢
    exact (Route.reanchor_reanchor _ _ _ a b).resolve_right kept

theorem Landed.pictures (landed : Landed c p m (c.move p m).1 q (.ok d) (c.stops p m))
    (ready : Ready c p) (before : c.Renders p h) :
    Scene.Pictures q.toContents (boxesOf q.nodes)
      (fun r token a b => m.Faithful c p h → r = (Route.raw token).reanchor a b) h
      (((c.move p m).1.markSaved.scene.reconcile q.toContents.listing).1.drawing? h) := by
  have nodup := ready.nodup
  have rearranged := landed.rearranged d rfl
  have nodup' := rearranged.keys.symm ▸ nodup
  have outline := (outline_markSaved (c.move p m).1).trans landed.outline
  obtain ⟨owner, rewired⟩ := (ready.reached.regular.of_outline outline).rewired
    (c := q.toContents) (ready.reached.numbered.of_outline outline) nodup'
  refine rewired.pictures nodup' ?_ ?_
  · intro y hy _ named
    obtain ⟨x, on, hx, handle, -⟩ := landed.exists_cable hy
    obtain ⟨w, a, b, spans, -⟩ := ready.exists_span before hx (handle.trans named)
    exact rearranged.span?_ne_none nodup (by simp [spans])
  · intro old e w outlet inlet a b x spans former same draft
    cases draft with
    | fresh => exact ⟨rfl, fun _ => Route.ofToken_eq _ _ _⟩
    | @kept k z mem handle ends =>
      obtain ⟨x, on, hx, named, led⟩ := landed.exists_cable (former _ mem)
      obtain rfl : z = _ := led
      have named : x.handle = h := handle.trans same
      obtain ⟨w', a', b', spans', token, -⟩ := ready.exists_span before hx named
      -- The wires of the patch are as they were.
      have hw := (Scene.span?_eq_some_iff.1 spans).1
      rw [Contents.wire?, rearranged.wires] at hw
      obtain rfl := Option.some.inj (hw.symm.trans (Scene.span?_eq_some_iff.1 spans').1)
      have known : ¬(w.token ≠ x.token ∧ false = false) := fun new => new.1 token.symm
      rw [Scene.refreshCable, if_neg known]
      refine ⟨token, fun faithful => ?_⟩
      rw [← token]
      exact landed.reanchor_trail ready before faithful hx named a b

/-- A move that ends with a plan, where that is the one that the token means, leaves it as it says. -/
theorem Landed.faithful (landed : Landed c p m (c.move p m).1 q result (c.stops p m))
    (ready : Ready c p) (before : c.Renders p h) {x : Nat × Cable} (hx : x ∈ c.scene.cables)
    (named : x.2.handle = h)
    (same : (trail (c.moved m) (c.stops p m) x.2).route.reanchor a b
      = (Route.raw x.2.token).reanchor a b)
    (kept : (Route.raw x.2.token).reanchor a b ≠ .straight) : m.Faithful c p h := by
  obtain ⟨w, a', b', -, token, still, route⟩ := ready.exists_span before hx named
  have handles := ready.reached.regular.cableHandles
  have anchored u hu := landed.trailed.anchored u hu x.2
  have led : (trail (c.moved m) (c.stops p m) x.2).route ≠ .straight := fun lost =>
    kept (by rw [← same, lost, Route.reanchor_straight])
  have planned : x.2.route ≠ .straight := fun straight =>
    led (by rw [Scene.trail_of_straight straight, straight])
  have former := route.resolve_right planned
  refine ⟨?_, (landed.tethered_iff ready hx named).2 ?_, ?_⟩
  · exact (Scene.planned_iff handles hx named).2 fun _ => Route.isSegmented_iff.2 planned
  · rintro ⟨shifted, other⟩
    have onward : x.2.route.reanchor a b = (Route.raw x.2.token).reanchor a b := by
      rw [token, former]
      rw [former] at planned
      exact (Route.reanchor_reanchor _ _ _ a b).resolve_right planned
    rw [shifted, ← onward] at same
    exact other ((Route.reanchor_shifted_eq_iff (onward ▸ kept)).1 same)
  · intro y hy named'
    obtain rfl := List.inj_on_of_nodup_map handles hx hy (named.trans named'.symm)
    exact Scene.sustains_of_trail anchored led

theorem Landed.route?_eq (landed : Landed c p m t q (.ok d) stops) (ready : Ready c p)
    (distinct : c.scene.handles.Nodup) {x : Nat × Cable} (hx : x ∈ c.scene.cables)
    (token : x.2.token = w.token)
    (joins : Joins c.scene.boxes x.2 w.ends)
    (spans : span? q.toContents (boxesOf q.nodes) x.2.handle = some (w, a, b)) :
    (t.markSaved.scene.reconcile q.toContents.listing).1.route? x.2.handle
      = some ((trail (c.moved m) stops x.2).route.reanchor a b) := by
  have outline := (outline_markSaved t).trans landed.outline
  have nodup' := (landed.rearranged d rfl).keys.symm ▸ ready.nodup
  have wf : t.markSaved.scene.WellFormed :=
    (Scene.wellFormed_iff.2 ⟨ready.reached.regular, distinct⟩).of_outline outline
  obtain ⟨on, there⟩ := landed.trailed.exists_mem hx
  have hy : (x.1, { trail (c.moved m) stops x.2 with selected := on, unsaved := false })
      ∈ t.markSaved.scene.cables :=
    (t.scene.cables_mapCables fun _ x => { x with unsaved := false }) ▸
      Keyed.mem_mapValues.2 ⟨_, there, rfl⟩
  rw [Scene.trail_eq] at hy
  obtain ⟨z, hz, drawn, -⟩ := wf.exists_refreshed
    (ready.reached.numbered.of_outline outline) nodup' hy spans (joins.of_outline outline)
  have known : ¬(w.token ≠ x.2.token ∧ false = false) := fun new => new.1 token.symm
  rw [Scene.refreshCable, if_neg known] at drawn
  rw [Scene.route?_of_mem (wf.reconcile nodup').cableHandles hz (by rw [drawn]), drawn]

/-- After a move that was saved, a canvas shows between the same jacks and with the same token what a
new canvas shows. The route is the same, too, if the move leaves it as its token says. Otherwise, where
no node is shown twice, it is the same at most if it is straight. -/
theorem move_saves (ready : Ready c p) (settings : CanvasSettings) (ok : (c.move p m).2.2 = .ok d)
    (before : Option.Rel (Drawing.Recovers fun _ => True) (c.scene.drawing? h)
      ((fresh settings p).scene.drawing? h)) :
    let kept := (c.afterMove p m settings).1
    let new := (c.afterMove p m settings).2
    Option.Rel Drawing.Matches (kept.scene.drawing? h) (new.scene.drawing? h) ∧
      (m.Faithful c p h → kept.scene.route? h = new.scene.route? h) ∧
      (c.scene.handles.Nodup → kept.scene.route? h = new.scene.route? h →
        new.scene.route? h = some .straight ∨ m.Faithful c p h) := by
  have nodup := ready.nodup
  have landed := landed_move ready.free ready.manual p m
  rw [ok] at landed
  have rearranged := landed.rearranged d rfl
  have shows : c.Renders p h := (pictures_fresh settings nodup h).recovers_iff.1 before
  have pictures := landed.pictures ready shows
  obtain ⟨drawn, contents⟩ := drawing?_saved (landed.queue ▸ ready.quiet) (c.move p m).2.1 h
  have old : (c.afterMove p m settings).1.scene.drawing? h = _ := drawn
  have new : (c.afterMove p m settings).2.scene.drawing? h = _ :=
    drawing?_fresh_congr settings contents h
  have pictures' := pictures_fresh settings (rearranged.keys.symm ▸ nodup) h
  dsimp only
  rw [Scene.route?, Scene.route?, old, new]
  cases spans : span? (c.move p m).2.1.toContents (boxesOf (c.move p m).2.1.nodes) h with
  | none =>
    simp only [Scene.Pictures, spans] at pictures pictures'
    rw [pictures, pictures']
    refine ⟨.none, fun _ => rfl, fun _ _ => Or.inr (faithful_of_not_mem fun x hx named => ?_)⟩
    -- A wire that has not both ends was not shown before, either.
    obtain ⟨w, a, b, spans', -⟩ := ready.exists_span shows hx named
    exact rearranged.span?_ne_none nodup (by simp [spans']) spans
  | some span =>
    obtain ⟨w, a, b⟩ := span
    simp only [Scene.Pictures, spans] at pictures pictures'
    obtain ⟨r, faithful, kept⟩ := pictures
    obtain ⟨_, rfl, fresh⟩ := pictures'
    rw [kept, fresh]
    refine ⟨.some ⟨rfl, rfl, rfl⟩, fun stays => ?_, fun distinct same => ?_⟩
    · rw [Option.map_some, Option.map_some, faithful stays]
    · by_cases shown : ∃ x ∈ c.scene.cables, x.2.handle = h
      · obtain ⟨x, hx, rfl⟩ := shown
        obtain ⟨w', a', b', spans', token, -⟩ := ready.exists_span shows hx rfl
        have hw := (Scene.span?_eq_some_iff.1 spans).1
        rw [Contents.wire?, rearranged.wires] at hw
        obtain rfl := Option.some.inj (hw.symm.trans (Scene.span?_eq_some_iff.1 spans').1)
        have led := landed.route?_eq ready distinct hx token (ready.joins hx spans').1 spans
        rw [Scene.route?, kept, Option.map_some, Option.some.injEq] at led
        rw [Option.map_some, Option.map_some, Option.some.injEq] at same
        rw [Option.map_some, Option.some.injEq]
        refine or_iff_not_imp_left.2 fun planned => ?_
        rw [← token] at same planned
        exact landed.faithful ready shows hx rfl (led.symm.trans same) planned
      · exact Or.inr (faithful_of_not_mem fun x hx named => shown ⟨x, hx, named⟩)

theorem ready_fresh (settings : CanvasSettings)
    (manual : settings.routing.autoRouteOnOverlap = false) (nodup : (keys p.nodes).Nodup) :
    Ready (fresh settings p) ((ofSettings settings).sync p).2.1 where
  synced := ⟨_, p, .ofSettings settings, nodup, rfl, rfl⟩
  free := rfl
  quiet := rfl
  manual := manual

theorem Reached.move (reached : Reached c) (p : Patch) (m : Haul) : Reached (c.move p m).1 := by
  have hauled : Reached (c.haul m) :=
    List.foldlRecOn (motive := Reached) _ _ (reached.call p (.beginMove m.grabbed m.start))
      fun t reached s _ => reached.call p (.dragMove s.position s.bypass s.now)
  exact hauled.call p (.endMove m.now)

/-- The lower box is taken aside and down. -/
def swerve : Haul := ⟨2, ⟨0, 0⟩, [⟨⟨10, 20⟩, true, 0⟩], 0⟩

/-- The lower box is taken aside and then down. -/
def detour : Haul := ⟨2, ⟨0, 0⟩, [⟨⟨10, 0⟩, true, 0⟩, ⟨⟨0, 20⟩, true, 0⟩], 0⟩

def descent : Haul := ⟨1, ⟨0, 0⟩, [⟨⟨0, 30⟩, true, 0⟩], 0⟩

/-- What is selected is taken up and put back. -/
def touch : Haul := ⟨1, ⟨0, 0⟩, [], 0⟩

end Canvas

/-- A wire between two nodes of one column whose plan runs straight down. -/
def Patch.column : Patch where
  nodes := [(1, ⟨"osc~", ⟨0, 0, 40, 20⟩, [], [true]⟩), (2, ⟨"dac~", ⟨0, 100, 40, 20⟩, [true], []⟩)]
  wires := [⟨3, ⟨1, 0, 2, 0⟩, "BB4oHlAeeB7K"⟩]
  next := 4

/-- A wire whose plan goes across halfway down. -/
def Patch.stair : Patch where
  nodes := [(1, ⟨"osc~", ⟨0, 0, 40, 20⟩, [], [true]⟩),
    (2, ⟨"dac~", ⟨100, 100, 40, 20⟩, [true], []⟩)]
  wires := [⟨3, ⟨1, 0, 2, 0⟩, "BB4oHnjmeObK"⟩]
  next := 4

namespace Canvas

open Patch (column stair)
open Scene (Drawing)

def chosen : Canvas := ((fresh {} stair).selectBox 1 false).selectBox 2 true

theorem reached_chosen : Reached chosen :=
  (((Reached.ofSettings {}).call stair .sync).call stair (.selectBox 1 false)).call stair
    (.selectBox 2 true)

theorem ready_chosen : Ready (chosen.sync stair).1 (chosen.sync stair).2.1 where
  synced := ⟨chosen, stair, reached_chosen, by decide, rfl, rfl⟩
  free := by decide +kernel
  quiet := by decide +kernel
  manual := by decide +kernel

def sunk : Canvas × Patch :=
  let (c, p, _) := (chosen.sync stair).1.move (chosen.sync stair).2.1 descent
  let (c, p, _) := c.flushTokens p
  (c, p)

theorem ready_sunk : Ready (sunk.1.sync sunk.2).1 (sunk.1.sync sunk.2).2.1 where
  synced := ⟨sunk.1, sunk.2, ((reached_chosen.call stair .sync).move (chosen.sync stair).2.1
    descent).call ((chosen.sync stair).1.move (chosen.sync stair).2.1 descent).2.1 .flushTokens,
    by decide +kernel, rfl, rfl⟩
  free := by decide +kernel
  quiet := by decide +kernel
  manual := by decide +kernel

theorem move_saves_stair :
    let c := fresh {} stair
    let p := ((ofSettings {}).sync stair).2.1
    let kept := (c.afterMove p swerve {}).1
    let new := (c.afterMove p swerve {}).2
    Ready c p ∧ (c.move p swerve).2.2 = .ok ⟨10, 20⟩ ∧
      Option.Rel (Drawing.Recovers fun _ => True) (c.scene.drawing? 3)
        ((fresh {} p).scene.drawing? 3) ∧ swerve.Faithful c p 3 ∧
      Option.Rel Drawing.Matches (kept.scene.drawing? 3) (new.scene.drawing? 3) ∧
      kept.scene.route? 3 = new.scene.route? 3 := by
  have ready := ready_fresh (p := stair) {} rfl (by decide)
  have ok : ((fresh {} stair).move ((ofSettings {}).sync stair).2.1 swerve).2.2 = .ok ⟨10, 20⟩ := by
    decide +kernel
  have before : Option.Rel (Drawing.Recovers fun _ => True) ((fresh {} stair).scene.drawing? 3)
      ((fresh {} ((ofSettings {}).sync stair).2.1).scene.drawing? 3) :=
    Drawing.recovers_refl _ _
  have faithful : swerve.Faithful (fresh {} stair) ((ofSettings {}).sync stair).2.1 3 := by
    decide +kernel
  obtain ⟨same, routes, -⟩ := move_saves ready {} ok before
  exact ⟨ready, ok, before, faithful, same, routes faithful⟩

/-- A plan that is taken along whole is elsewhere on a new canvas, one that was lost on the way is not
lost there, and one that was elsewhere before stays there. -/
theorem move_differ :
    (¬ ∀ c p, Ready c p → ∀ m d settings, (c.move p m).2.2 = .ok d → ∀ h,
      (c.afterMove p m settings).1.scene.route? h = (c.afterMove p m settings).2.scene.route? h) ∧
    (¬ ∀ c p, Ready c p → ∀ m d settings, (c.move p m).2.2 = .ok d → ∀ h,
      c.scene.Tethered (c.move p m).1.scene h →
        (c.afterMove p m settings).1.scene.route? h
          = (c.afterMove p m settings).2.scene.route? h) ∧
    ¬ ∀ c p, Ready c p → ∀ m d settings, (c.move p m).2.2 = .ok d → ∀ h, m.Faithful c p h →
      (c.afterMove p m settings).1.scene.route? h
        = (c.afterMove p m settings).2.scene.route? h := by
  refine ⟨fun always => ?_, fun always => ?_, fun always => ?_⟩
  · have same := always _ _ ready_chosen descent ⟨0, 30⟩ {} (by decide +kernel) 3
    revert same
    decide +kernel
  · have same := always _ _ (ready_fresh (p := column) {} rfl (by decide)) detour ⟨0, 20⟩ {}
      (by decide +kernel) 3 (by decide +kernel)
    revert same
    decide +kernel
  · have same := always _ _ ready_sunk touch .origin {} (by decide +kernel) 3 (by decide +kernel)
    revert same
    decide +kernel

end Canvas

end Patchbay
