import Patchbay.Proofs.Attached

/-!
# Routes that come off

A cable between two boxes that are both put elsewhere takes its plan along by the way of its outlet.
So the plan comes off the inlet when the boxes go by different ways, as they do when boxes are lined
up. A segment drag that is given up goes back to the route it began with, which may be at anchors that
have moved since. Nothing else takes a route off its anchors, and the next pass puts it back.
-/

namespace Patchbay

open Keyed (keys mapValues)

namespace Scene

/-- A plan that has gone the way of the outlet, between two boxes that have gone different ways. -/
structure Torn (moved : List Nat) (s t : Scene) (x y : Cable) : Prop where
  both : (moved.contains x.outlet.box && moved.contains x.inlet.box) = true
  planned : x.route.isSegmented = true
  torn : ∃ a b a' b', s.ends? x = some (a, b) ∧ t.ends? y = some (a', b') ∧
    y.route = x.route.shifted (a' - a) ∧ a' - a ≠ b' - b

/-- Each cable of a handle is attached, or was torn. -/
def Drags (moved : List Nat) (s t : Scene) (h : Nat) : Prop :=
  ∀ k y, (k, y) ∈ t.cables → y.handle = h → t.Attached y ∨
    ∃ x, (k, x) ∈ s.cables ∧ x.handle = h ∧ Torn moved s t x y

variable {s t u : Scene} {x y z : Cable} {h : Nat} {moved : List Nat}

theorem Torn.not_attached (torn : Torn moved s t x y) (attached : s.Attached x) :
    ¬t.Attached y := by
  obtain ⟨-, planned, a, b, a', b', ends, ends', route, differ⟩ := torn
  intro held
  cases hx : x.route with
  | straight => simp [hx, Route.isSegmented] at planned
  | segmented ps =>
    obtain ⟨-, _, _, found, -, last⟩ := attached ps hx
    obtain ⟨rfl, rfl⟩ := Prod.mk.inj (Option.some.inj (ends.symm.trans found))
    obtain ⟨-, _, _, found, -, last'⟩ := held (ps.map (· + (a' - a))) (by rw [route, hx]; rfl)
    obtain ⟨rfl, rfl⟩ := Prod.mk.inj (Option.some.inj (ends'.symm.trans found))
    rw [List.getLast?_map, last, Option.map_some, Option.some.injEq] at last'
    refine differ ?_
    simp only [Point.ext_iff, Point.add_x, Point.add_y, Point.sub_x, Point.sub_y] at last' ⊢
    omega

theorem Torn.congr (torn : Torn moved s t x y) (route : z.route = y.route)
    (ends : u.ends? z = t.ends? y) : Torn moved s u x z := by
  obtain ⟨both, planned, a, b, a', b', found, found', carried, differ⟩ := torn
  exact ⟨both, planned, a, b, a', b', found, ends.trans found', route.trans carried, differ⟩

theorem AttachedAt.drags (attached : t.AttachedAt h) : Drags moved s t h :=
  fun k y hy named => Or.inl (attached (k, y) hy named)

theorem Drags.mends (drags : Drags moved s t h) (mends : t.Mends u h) : Drags moved s u h := by
  intro k z hz named
  rcases mends k z hz named with held | ⟨y, hy, named', route, ends⟩
  · exact Or.inl held
  · rcases drags k y hy named' with held | ⟨x, hx, named'', torn⟩
    · exact Or.inl (held.congr route ends)
    · exact Or.inr ⟨x, hx, named'', torn.congr route ends⟩

theorem drags_follow {c : Canvas} (attached : s.AttachedAt h) (tidy : s.Tidy)
    (outline : c.scene.outline = s.outline) (cables : c.scene.cables = s.cables)
    (apart : ∀ k, moved.contains k = false → c.scene.box? k = s.box? k) :
    Drags moved s (c.follow moved).scene h := by
  intro k y hy named
  rw [(Canvas.recast_follow c moved).cables] at hy
  obtain ⟨x, hx, made⟩ := Keyed.mem_mapValues.1 hy
  obtain rfl : y = Canvas.followMoved c.scene moved x := made
  obtain ⟨handle, outlet, inlet⟩ := Canvas.followMoved_ends c.scene moved x
  have mem : (k, x) ∈ s.cables := cables ▸ hx
  have held := attached (k, x) mem (handle.symm.trans named)
  obtain ⟨a, b, ends⟩ := exists_ends (tidy.wired _ mem)
  obtain ⟨a', b', ends'⟩ := exists_ends ((tidy.of_outline outline).wired _ hx)
  have anchors : (c.follow moved).scene.ends? (Canvas.followMoved c.scene moved x)
      = some (a', b') := (ends?_congr (fun _ => rfl) ⟨outlet, inlet⟩).trans ends'
  have still := (attached_iff ends).1 held
  by_cases both : (moved.contains x.outlet.box && moved.contains x.inlet.box) = true
  · have route := route_followMoved_both both still ends'
    by_cases together : a' - a = b' - b
    · left
      have start : a' = a + (a' - a) := by
        simp only [Point.ext_iff, Point.add_x, Point.add_y, Point.sub_x, Point.sub_y]
        omega
      have stop : b' = b + (a' - a) := by
        rw [together]
        simp only [Point.ext_iff, Point.add_x, Point.add_y, Point.sub_x, Point.sub_y]
        omega
      rw [attached_iff anchors, route]
      generalize a' - a = d at start stop
      rw [start, stop, Route.reanchor_shifted, still]
    · cases hroute : x.route with
      | straight =>
        left
        rw [attached_iff anchors, route, hroute]
        rfl
      | segmented ps =>
        right
        exact ⟨x, mem, handle.symm.trans named, both, by rw [hroute]; rfl, a, b, a', b', ends, anchors,
          route, together⟩
  · left
    by_cases one : x.touchesAny moved = true
    · rw [attached_iff anchors, route_followMoved_one one both ends']
      exact Route.reanchor_self _ _ _
    · obtain ⟨hout, hin⟩ := not_or.1 (touchesAny_iff.not.1 one)
      have spot {ref : JackRef} (out : ¬moved.contains ref.box = true) :
          c.scene.anchor? ref = s.anchor? ref := by
        simp only [anchor?, jackBounds?, apart ref.box (by simpa using out)]
      refine held.congr (by rw [followMoved_apart one]) (anchors.trans ?_)
      rw [← ends', ends?, ends?, spot hout, spot hin]

end Scene

namespace Canvas

open Scene (Drags Torn Tidy)

variable {δ : Type} [Document δ] {c : Canvas} {d : δ} {h key now : Nat} {position : Point}

def held (c : Canvas) : List Nat :=
  match c.drag with
  | .boxes _ _ _ => c.selection.boxes
  | .resize key _ _ _ => [key]
  | _ => []

theorem held_boxes {grabbed : Nat} {start offset : Point} (drag : c.drag = .boxes grabbed start offset) :
    c.held = c.selection.boxes := by
  rw [held, drag]

theorem held_resize {edges : Edges} {start offset : Point}
    (drag : c.drag = .resize key edges start offset) : c.held = [key] := by
  rw [held, drag]

theorem box?_updateBoxes {s : Scene} {ks : List Nat} {f : Box → Box} {k : Nat}
    (apart : ks.contains k = false) : (s.updateBoxes ks f).box? k = s.box? k := by
  simp only [Scene.updateBoxes, Scene.box?_mapBoxes, apart, Bool.false_eq_true, if_false]
  exact Option.map_id'

theorem drags_showOffset (attached : c.scene.AttachedAt h) (tidy : c.scene.Tidy) (offset : Point) :
    Drags c.selection.boxes c.scene (c.showOffset offset).scene h :=
  Scene.drags_follow attached tidy (Scene.outline_updateBoxes (by exact fun _ => rfl) _) rfl
    fun _ => box?_updateBoxes

theorem drags_follow_updateBox (attached : c.scene.AttachedAt h) (tidy : c.scene.Tidy) {b : Canvas}
    {f : Box → Box} (tag : ∀ b, (f b).tag = b.tag) (scene : b.scene = c.scene.updateBox key f) :
    Drags [key] c.scene (b.follow [key]).scene h := by
  refine Scene.drags_follow attached tidy ?_ ?_ fun k apart => ?_
  · rw [scene]
    exact Scene.outline_updateBox tag
  · rw [scene]
    rfl
  · rw [scene]
    exact Scene.box?_updateBox_ne (by simpa [eq_comm] using apart) f

theorem drags_dragMove (attached : c.scene.AttachedAt h) (tidy : c.scene.Tidy) (position : Point)
    (bypass : Bool) (now : Nat) :
    Drags c.held c.scene (c.dragMove position bypass now).1.scene h := by
  unfold dragMove
  split
  · next drag =>
    rw [held_boxes drag]
    split
    · exact attached.drags
    · exact drags_showOffset (c := { c with snapper := _ }) attached tidy _
  · exact attached.drags

theorem drags_endMove (attached : c.scene.AttachedAt h) (tidy : c.scene.Tidy)
    (d : δ) (now : Nat) : Drags c.held c.scene (c.endMove d now).1.scene h := by
  unfold endMove
  split
  · next offset drag =>
    rw [held_boxes drag]
    have shown := drags_showOffset (h := h) (c := { c with drag := .none, snapper := c.snapper.clear })
      attached tidy (c.snapper.settle offset)
    have outline := outline_showOffset { c with drag := .none, snapper := c.snapper.clear }
      (c.snapper.settle offset)
    dsimp only
    generalize { c with drag := .none, snapper := c.snapper.clear }.showOffset _ = u at *
    split
    · exact shown
    · split
      · exact shown
      · split
        · exact shown.mends (mends_routeBlocked (c := u.requestSync) (tidy.of_outline outline) _ _ _)
        · exact shown
  · exact attached.drags

theorem drags_dragResize (attached : c.scene.AttachedAt h) (tidy : c.scene.Tidy) (position : Point)
    (bypass : Bool) (now : Nat) :
    Drags c.held c.scene (c.dragResize position bypass now).1.scene h := by
  unfold dragResize
  split
  · next drag =>
    rw [held_resize drag]
    split
    · exact attached.drags
    · refine drags_follow_updateBox attached tidy ?_ rfl
      exact fun b => Box.tag_layoutJacks { b with bounds := _ }
  · exact attached.drags

theorem drags_alignSelection (attached : c.scene.AttachedAt h) (tidy : c.scene.Tidy) (d : δ)
    (a : Alignment) :
    Drags (keys (c.alignMoves a)) c.scene (c.alignSelection d a).1.scene h := by
  unfold alignSelection
  split
  · exact attached.drags
  · dsimp only
    split
    · exact attached.drags
    · split
      · exact attached.drags
      · obtain ⟨outline, cables, apart⟩ := placed_foldl c.scene (c.alignMoves a)
        exact Scene.drags_follow attached tidy outline (Scene.cables_congr cables) apart

theorem attachedAt_cancelSegment (tidy : c.scene.Tidy) (attached : c.scene.AttachedAt h)
    (fresh : ∀ g x a b, c.drag = .segment g → (g.cable, x) ∈ c.scene.cables → x.handle = h →
      c.scene.ends? x = some (a, b) → g.before.reanchor a b = g.before) :
    c.cancelSegment.scene.AttachedAt h := by
  unfold cancelSegment
  split
  · next g drag =>
    exact (Scene.mends_updateRoute tidy fun x a b => fresh g x a b drag).attachedAt attached
  · exact attached

theorem drags_cancelDrag (tidy : c.scene.Tidy) (attached : c.scene.AttachedAt h)
    (fresh : ∀ g x a b, c.drag = .segment g → (g.cable, x) ∈ c.scene.cables → x.handle = h →
      c.scene.ends? x = some (a, b) → g.before.reanchor a b = g.before) :
    Drags c.held c.scene c.cancelDrag.scene h := by
  unfold cancelDrag
  split
  · exact attached.drags
  · next drag =>
    rw [held_boxes drag]
    exact Scene.drags_follow attached tidy (Scene.outline_updateBoxes (by exact fun _ => rfl) _) rfl
      fun _ => box?_updateBoxes
  · next drag =>
    rw [held_resize drag]
    refine drags_follow_updateBox attached tidy ?_ rfl
    exact fun b => Box.tag_layoutJacks { b with bounds := b.home }
  · exact ((mends_clearTarget { c with drag := .none }).attachedAt attached).drags
  · exact (attachedAt_cancelSegment tidy attached fresh).drags
  · exact attached.drags

/-! ## Twists -/

def Call.puts (c : Canvas) : Call → List Nat
  | dragMove _ _ _ | endMove _ | dragResize _ _ _ | cancelDrag | setLocked true => c.held
  | alignSelection a => keys (c.alignMoves a)
  | _ => []

def Call.givesUp : Call → Bool
  | cancelSegment | cancelDrag | setLocked true => true
  | _ => false

/-- A call that takes the route of a handle off its anchors. -/
inductive Twists (c : Canvas) (d : δ) (h : Nat) (call : Call) : Prop
  | torn {k : Nat} {x y : Cable} (before : (k, x) ∈ c.scene.cables) (named : x.handle = h)
      (after : (k, y) ∈ (call.run c d).1.scene.cables) (named' : y.handle = h)
      (torn : Torn (call.puts c) c.scene (call.run c d).1.scene x y)
  | stale {g : SegmentDrag} {x : Cable} {a b : Point} (drag : c.drag = .segment g)
      (givesUp : call.givesUp = true) (mem : (g.cable, x) ∈ c.scene.cables) (named : x.handle = h)
      (ends : c.scene.ends? x = some (a, b)) (stale : g.before.reanchor a b ≠ g.before)

theorem Call.restored {call : Call} {g : SegmentDrag} {x : Cable} (drag : c.drag = .segment g)
    (givesUp : call.givesUp = true) (mem : (g.cable, x) ∈ c.scene.cables) :
    ∃ y, (g.cable, y) ∈ (call.run c d).1.scene.cables ∧ y.handle = x.handle ∧
      y.route = g.before ∧ (call.run c d).1.scene.ends? y = c.scene.ends? x := by
  have cancelled : c.cancelDrag = c.cancelSegment := by simp only [Canvas.cancelDrag, drag]
  have back : (g.cable, { x with route := g.before }) ∈ c.cancelSegment.scene.cables := by
    simp only [Canvas.cancelSegment, drag, Scene.cables_updateCable]
    exact Keyed.mem_update_self _ mem
  have anchors (ref : JackRef) : c.cancelSegment.scene.anchor? ref = c.scene.anchor? ref := by
    simp only [Canvas.cancelSegment, drag]
    rfl
  cases call with
  | cancelSegment => exact ⟨_, back, rfl, rfl, Scene.ends?_congr anchors ⟨rfl, rfl⟩⟩
  | cancelDrag =>
    simp only [run, cancelled]
    exact ⟨_, back, rfl, rfl, Scene.ends?_congr anchors ⟨rfl, rfl⟩⟩
  | setLocked locked =>
    cases locked with
    | false => exact absurd givesUp (by simp [Call.givesUp])
    | true =>
      have marked := Scene.marked_mark {} c.cancelSegment.scene
      simp only [run, Canvas.setLocked, if_true, cancelled]
      have there : (g.cable, { x with route := g.before, selected := false }) ∈
          (Selection.mark {} c.cancelSegment.scene).cables := by
        rw [marked.recast.cables]
        exact Keyed.mem_mapValues.2 ⟨_, back, rfl⟩
      exact ⟨_, there, rfl, rfl,
        Scene.ends?_congr (fun ref => (marked.anchor? ref).trans (anchors ref)) ⟨rfl, rfl⟩⟩
  | _ => exact absurd givesUp (by simp [Call.givesUp])

theorem Twists.not_attachedAt {call : Call} (twists : Twists c d h call)
    (attached : c.scene.AttachedAt h) : ¬(call.run c d).1.scene.AttachedAt h := by
  intro held
  cases twists with
  | torn before named after named' torn =>
    exact torn.not_attached (attached _ before named) (held _ after named')
  | stale drag givesUp mem named ends stale =>
    obtain ⟨y, hy, handle, route, same⟩ := Call.restored (d := d) drag givesUp mem
    have kept := (Scene.attached_iff (same.trans ends)).1 (held _ hy (handle.trans named))
    rw [route] at kept
    exact stale kept

theorem Call.drags {p : Patch} {call : Call} (joined : Joined c p) (tidy : c.scene.Tidy)
    (loyal : Scene.Loyal p c.scene h) (attached : c.scene.AttachedAt h)
    (fresh : call.givesUp = true → ∀ g x a b, c.drag = .segment g → (g.cable, x) ∈ c.scene.cables →
      x.handle = h → c.scene.ends? x = some (a, b) → g.before.reanchor a b = g.before) :
    Drags (call.puts c) c.scene (call.run c p).1.scene h := by
  have regular := (Scene.wellFormed_iff.1 joined.wf).1
  have steady {t : Scene} (mends : c.scene.Mends t h) : Drags (call.puts c) c.scene t h :=
    (mends.attachedAt attached).drags
  cases call with
  | setSettings _ => exact attached.drags
  | setViewport _ => exact attached.drags
  | setGridOrigin _ => exact attached.drags
  | setLocked locked =>
    cases locked with
    | false => exact attached.drags
    | true => exact (drags_cancelDrag tidy attached (fresh rfl)).mends (mends_markSelection _)
  | sync => exact (attachedAt_sync joined loyal).drags
  | idle =>
    simp only [run, Canvas.idle]
    split
    · exact attached.drags
    · exact (attachedAt_sync joined loyal).drags
  | requestSync => exact attached.drags
  | selectBox key toggle => exact steady (mends_selectBox c key toggle)
  | selectCable key toggle => exact steady (mends_selectCable c key toggle)
  | deselectAll => exact steady (mends_markSelection _)
  | beginLasso position => exact steady (mends_beginLasso c position)
  | updateLasso position => exact steady (mends_updateLasso c position)
  | endLasso => exact steady (mends_endLasso c)
  | beginMove grabbed position => exact steady (mends_beginMove c grabbed position)
  | dragMove position bypass now => exact drags_dragMove attached tidy position bypass now
  | endMove now => exact drags_endMove attached tidy p now
  | beginResize key edges position => exact steady (mends_beginResize c key edges position)
  | dragResize position bypass now => exact drags_dragResize attached tidy position bypass now
  | endResize => exact steady (mends_endResize c p)
  | deleteSelection => exact steady (mends_deleteSelection tidy regular p)
  | alignSelection a => exact drags_alignSelection attached tidy p a
  | beginConnection jack multi => exact steady (mends_beginConnection c jack multi)
  | dragConnection position => exact steady (mends_dragConnection c position)
  | endConnection => exact steady (mends_endConnection c p)
  | cancelConnection => exact steady (mends_cancelConnection c)
  | beginSegment key position => exact steady (mends_beginSegment c key position)
  | dragSegment position => exact steady (mends_dragSegment tidy position)
  | endSegment now => exact steady (mends_endSegment c p now)
  | cancelSegment => exact (attachedAt_cancelSegment tidy attached (fresh rfl)).drags
  | cancelDrag => exact drags_cancelDrag tidy attached (fresh rfl)
  | routeCable key now => exact steady (mends_routeCable tidy p key now)
  | straightenCable key now => exact steady (mends_straightenCable tidy p key now)
  | reanchorCable key => exact steady (mends_reanchorCable tidy key)
  | pushToken key token now => exact steady (mends_pushToken c p key token now)
  | tick now => exact steady (mends_tick c p now)
  | flushTokens => exact steady (mends_markSaved _)
  | placeBlank position => exact steady (mends_placeBlank tidy position)
  | commitBlank key text => exact steady (mends_commitBlank tidy regular p key text)
  | cancelBlank key => exact steady (mends_cancelBlank tidy regular key)

/-- A call leaves an attached route attached exactly if it does not twist it. -/
theorem Call.attachedAt_iff {p : Patch} {call : Call} (joined : Joined c p) (tidy : c.scene.Tidy)
    (loyal : Scene.Loyal p c.scene h) (attached : c.scene.AttachedAt h) :
    (call.run c p).1.scene.AttachedAt h ↔ ¬Twists c p h call := by
  refine ⟨fun held twists => twists.not_attachedAt attached held, fun straight => ?_⟩
  have drags : Drags (call.puts c) c.scene (call.run c p).1.scene h := by
    refine Call.drags joined tidy loyal attached fun givesUp g x a b drag mem named ends => ?_
    by_contra stale
    exact straight (.stale drag givesUp mem named ends stale)
  rintro ⟨k, y⟩ hy named
  rcases drags k y hy named with held | ⟨x, hx, named', torn⟩
  · exact held
  · exact absurd (.torn hx named' hy named torn) straight

/-! ## Runs -/

theorem play_append (settings : CanvasSettings) (p : Patch) (before : List Event) (e : Event) :
    play settings p (before ++ [e]) = e.run (play settings p before) := by
  simp [play, List.foldl_append]

/-- From a pass on, the cable of a handle that stands for one wire is attached for good, exactly if no
call twists its route. -/
theorem play_attachedAt_iff (settings : CanvasSettings) (p : Patch) (loaded : p.Loaded) (h : Nat)
    (unambiguous : Scene.Unambiguous p h) (before after : List Event) :
    let state (n : Nat) := play settings p (before ++ [.call .sync] ++ after.take n)
    (∀ n, (state n).1.scene.AttachedAt h) ↔
      ∀ n call, after[n]? = some (.call call) → ¬Twists (state n).1 (state n).2 h call := by
  intro state
  have step (n : Nat) (e : Event) (there : after[n]? = some e) : state (n + 1) = e.run (state n) := by
    simp only [state, List.take_add_one, there, Option.toList_some, ← List.append_assoc]
    exact play_append settings p _ e
  have iff (n : Nat) (call : Call) (there : after[n]? = some (.call call))
      (attached : (state n).1.scene.AttachedAt h) :
      (state (n + 1)).1.scene.AttachedAt h ↔ ¬Twists (state n).1 (state n).2 h call := by
    rw [step n _ there]
    exact Call.attachedAt_iff (joined_play settings loaded _) (tidy_play settings loaded _)
      (loyal_play settings loaded unambiguous _) attached
  constructor
  · intro attached n call there
    exact (iff n call there (attached n)).1 (attached (n + 1))
  · intro straight n
    induction n with
    | zero =>
      simp only [state, List.take_zero, List.append_nil, play_append]
      exact attachedAt_sync (joined_play settings loaded _) (loyal_play settings loaded unambiguous _)
    | succ n ih =>
      cases there : after[n]? with
      | none =>
        have done : after.take (n + 1) = after.take n := by
          simp [List.take_add_one, there]
        simp only [state, done]
        exact ih
      | some e =>
        cases e with
        | call call => exact (iff n call there ih).2 (straight n call there)
        | mutate m =>
          rw [step n _ there]
          exact ih

/-- Two nodes with a wire along a plan and a third node to the left of them, all selected. -/
def spread : List Event :=
  [.mutate (.insertNode ⟨"osc~", ⟨50, 0, 40, 20⟩, [], [true]⟩),
    .mutate (.insertNode ⟨"dac~", ⟨100, 100, 40, 20⟩, [true], []⟩),
    .mutate (.insertNode ⟨"print", ⟨0, 50, 40, 20⟩, [true], []⟩),
    .mutate (.insertWire ⟨1, 0, 2, 0⟩),
    .mutate (.edit (.setToken 4 "BB4oHnjmeObK")),
    .call .sync, .call (.selectBox 1 false), .call (.selectBox 2 true), .call (.selectBox 3 true)]

/-- Lining up the nodes moves both ends of the wire, so the alignment must be what tears its plan. -/
theorem play_attachedAt_iff_spread : Patch.Loaded {} ∧ Scene.Unambiguous {} 4 ∧
    ∃ n call, [Event.call (.alignSelection .left)][n]? = some (.call call) ∧
      Twists (play {} {} (spread ++ [.call .sync] ++ [.call (.alignSelection .left)].take n)).1
        (play {} {} (spread ++ [.call .sync] ++ [.call (.alignSelection .left)].take n)).2 4 call := by
  have unambiguous : Scene.Unambiguous {} 4 := fun _ hv => absurd hv List.not_mem_nil
  refine ⟨.empty, unambiguous, ?_⟩
  by_contra straight
  have attached := (play_attachedAt_iff {} {} .empty 4 unambiguous spread
    [.call (.alignSelection .left)]).2 fun n call there twists => straight ⟨n, call, there, twists⟩
  have off := attached 1
  revert off
  decide +kernel

/-- Routes come off when boxes are lined up, and when a segment drag is given up after that. -/
theorem play_detached :
    (¬ ∀ p : Patch, p.Loaded → ∀ before, ∀ a, ∀ x ∈ (play {} p
      (before ++ [.call .sync, .call (.alignSelection a)])).1.scene.cables,
      (play {} p (before ++ [.call .sync, .call (.alignSelection a)])).1.scene.Attached x.2) ∧
    ¬ ∀ p : Patch, p.Loaded → ∀ before, ∀ key position a, ∀ x ∈ (play {} p (before ++ [.call .sync,
      .call (.beginSegment key position), .call (.alignSelection a),
      .call .cancelSegment])).1.scene.cables,
      (play {} p (before ++ [.call .sync, .call (.beginSegment key position),
        .call (.alignSelection a), .call .cancelSegment])).1.scene.Attached x.2 := by
  constructor
  · intro always
    have torn := always {} .empty spread .left
    revert torn
    decide +kernel
  · intro always
    have stale := always {} .empty (spread ++ [.call (.selectBox 2 true)]) 1 ⟨90, 60⟩ .left
    revert stale
    decide +kernel

end Canvas

end Patchbay
