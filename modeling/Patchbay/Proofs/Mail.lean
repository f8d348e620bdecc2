import Patchbay.Proofs.Sync

/-!
# Tokens that are left alone

A slip is what a cable says of its token: the wire, the token, and whether it waits to be written.
Most calls leave all slips as they are, and the tokens that are queued. A pass over a document may
replace the cables of other keys, and it may lead a cable elsewhere; but it leaves the token of a
cable that waits, as long as the cable keeps its key.
-/

namespace Patchbay

open Keyed (keys get?)

namespace Scene

/-- What a cable says of its token: the wire, the token, and whether it waits to be written. -/
def slip (x : Cable) : Nat × String × Bool := (x.handle, x.token, x.unsaved)

def slips (s : Scene) : Arena (Nat × String × Bool) := s.cableArena.map slip

variable {s t u : Scene} {k h : Nat} {x y : Cable}

theorem get?_slips (s : Scene) (k : Nat) : s.slips.get? k = (s.cable? k).map slip :=
  s.cableArena.get?_map slip k

theorem slips_congr (cables : t.cableArena = s.cableArena) : t.slips = s.slips := by
  rw [slips, cables, slips]

theorem slips_mapCables {f : Nat → Cable → Cable} (same : ∀ k x, slip (f k x) = slip x) :
    (s.mapCables f).slips = s.slips :=
  Arena.map_mapValues slip same s.cableArena

theorem slips_updateCable {f : Cable → Cable} (same : ∀ x, slip (f x) = slip x) :
    (s.updateCable k f).slips = s.slips :=
  Arena.map_update slip same s.cableArena k

theorem slips_removeBoxes (s : Scene) (ks : List Nat) : (ks.foldl removeBox s).slips = s.slips :=
  slips_congr (cableArena_foldl_removeBox ks s)

/-- A cable that a pass over a document finds, and what it makes of it: one that waits keeps its
token, and follows its anchors at most. -/
structure Upheld (t : Scene) (x y : Cable) : Prop where
  ends : y.handle = x.handle ∧ y.outlet = x.outlet ∧ y.inlet = x.inlet
  waits : x.unsaved = true → y.unsaved = true ∧ y.token = x.token ∧
    (y.route = x.route ∨ ∃ a b, t.ends? y = some (a, b) ∧ y.route = x.route.reanchor a b)

/-- Each cable under an old key is the one that stood there. -/
structure Upholds (s t : Scene) : Prop where
  next : s.nextCable ≤ t.nextCable
  cables : ∀ k y, (k, y) ∈ t.cables → k < s.nextCable →
    ∃ x, (k, x) ∈ s.cables ∧ Upheld t x y

theorem Upheld.refl (t : Scene) (x : Cable) : Upheld t x x :=
  ⟨⟨rfl, rfl, rfl⟩, fun unsaved => ⟨unsaved, rfl, Or.inl rfl⟩⟩

theorem Upheld.congr (upheld : Upheld t x y) (same : u.boxArena = t.boxArena) : Upheld u x y where
  ends := upheld.ends
  waits unsaved := by
    have anchors : u.ends? y = t.ends? y := by simp only [ends?, anchor?_congr same]
    rw [anchors]
    exact upheld.waits unsaved

theorem Upheld.refresh {a b : Point} (upheld : Upheld t x y) (anchors : t.ends? y = some (a, b))
    (token : String) : Upheld t x (refreshCable y token a b) := by
  obtain ⟨⟨handle, outlet, inlet⟩, waits⟩ := upheld
  obtain ⟨handle', outlet', inlet'⟩ := refreshCable_ends y token a b
  refine ⟨⟨handle'.trans handle, outlet'.trans outlet, inlet'.trans inlet⟩, fun unsaved => ?_⟩
  obtain ⟨still, same, route⟩ := waits unsaved
  have kept : refreshCable y token a b = { y with route := y.route.reanchor a b } := by
    simp [refreshCable, still]
  rw [kept]
  refine ⟨still, same, Or.inr ⟨a, b, anchors, ?_⟩⟩
  rcases route with route | ⟨a', b', anchors', route⟩
  · rw [route]
  · obtain ⟨rfl, rfl⟩ := Prod.mk.inj (Option.some.inj (anchors.symm.trans anchors'))
    rw [route, Route.reanchor_self]

theorem Upholds.of_sublist (cables : t.cables.Sublist s.cables) (next : t.nextCable = s.nextCable) :
    Upholds s t where
  next := Nat.le_of_eq next.symm
  cables _ y there _ := ⟨y, cables.subset there, .refl t y⟩

theorem Upholds.showWire (upholds : Upholds s t) (l : Listing) (owner : Nat → Option Nat)
    (report : SyncReport) (e : WireEntry) : Upholds s (showWire l owner (t, report) e).1 := by
  obtain ⟨next, cables⟩ := upholds
  have stays (u : Scene) (boxes : u.boxArena = t.boxArena) {k : Nat} {y : Cable}
      (there : (k, y) ∈ t.cables) (old : k < s.nextCable) :
      ∃ x, (k, x) ∈ s.cables ∧ Upheld u x y := by
    obtain ⟨x, hx, upheld⟩ := cables k y there old
    exact ⟨x, hx, upheld.congr boxes⟩
  simp only [Scene.showWire]
  split
  · exact ⟨next, cables⟩
  · split
    · refine ⟨?_, fun k y there old => ?_⟩
      · rw [nextCable_addCable]
        exact Nat.le_succ_of_le next
      · rcases of_mem_addCable there with there | new
        · exact stays (t.addCable _) rfl there old
        · obtain ⟨rfl, -⟩ := Prod.mk.inj new
          omega
    · next key _ =>
      split
      · exact ⟨next, cables⟩
      · next c found =>
        split
        · refine ⟨?_, fun k y there old => ?_⟩
          · rw [nextCable_replaceCable]
            exact Nat.le_succ_of_le next
          · rcases of_mem_replaceCable there with there | new
            · exact stays (t.replaceCable key _) rfl there old
            · obtain ⟨rfl, -⟩ := Prod.mk.inj new
              omega
        · split
          · exact ⟨next, cables⟩
          · next a b anchors =>
            refine ⟨Nat.le_trans next (Nat.le_of_eq (Arena.next_update ..).symm), fun k y there old => ?_⟩
            rw [cables_updateCable] at there
            rcases Keyed.of_mem_update there with ⟨there, -⟩ | ⟨z, hz, made⟩
            · exact stays (t.updateCable key _) rfl there old
            · obtain ⟨rfl, rfl⟩ := Prod.mk.inj made
              obtain rfl : c = z := Option.some.inj (found.symm.trans (cable?_of_mem hz))
              obtain ⟨x, hx, upheld⟩ := cables k c hz old
              exact ⟨x, hx, (upheld.refresh anchors _).congr rfl⟩

theorem upholds_reconcile (s : Scene) (l : Listing) : Upholds s (s.reconcile l).1 := by
  have pruned : (s.prune l).cables.Sublist s.cables := (cables_prune l s).1.trans List.filter_sublist
  have cables := cableArena_showNodes l (s.prune l, {})
  generalize shown : (Scene.showNodes l (s.prune l, {})).1 = t at cables
  obtain ⟨report, -, hrec⟩ := reconcile_of_showNodes shown
  rw [hrec, showWires]
  refine List.foldlRecOn (motive := fun state : Scene × SyncReport => Upholds s state.1) _ _
    (.of_sublist ?_ ?_) ?_
  · rw [dropOrphans, cables_keepCables, cables_congr (t := t.sortBoxes) cables]
    exact List.filter_sublist.trans pruned
  · rw [dropOrphans, nextCable_keepCables]
    exact (congrArg Arena.next cables).trans (cables_prune l s).2
  · rintro ⟨t, report⟩ upholds e -
    exact upholds.showWire l _ report e

theorem Upholds.marked {f : Nat → Box → Box} {g : Nat → Bool} (upholds : Upholds s t)
    (marked : Marked t u f g) : Upholds s u where
  next := by
    have same : u.nextCable = t.nextCable := by
      rw [nextCable, marked.cableArena, Arena.next_mapValues, nextCable]
    exact Nat.le_trans upholds.next (Nat.le_of_eq same.symm)
  cables k z there old := by
    rw [marked.recast.cables] at there
    obtain ⟨y, hy, same⟩ := Keyed.mem_mapValues.1 there
    obtain rfl : z = { y with selected := g k } := same
    obtain ⟨x, hx, ends, waits⟩ := upholds.cables k y hy old
    have anchors : u.ends? { y with selected := g k } = t.ends? y := by
      simp only [ends?, marked.anchor?]
    refine ⟨x, hx, ends, fun unsaved => ?_⟩
    rw [anchors]
    exact waits unsaved

end Scene

/-- The slips of the cables, and the tokens that are queued. -/
structure Mail where
  slips : Arena (Nat × String × Bool)
  waiting : Keyed String

namespace Canvas

variable {δ : Type} [Document δ] {c : Canvas} {d : δ} {key now : Nat} {position : Point}

theorem upholds_sync (c : Canvas) (d : δ) : Scene.Upholds c.scene (c.sync d).1.scene := by
  obtain ⟨f, g, marked⟩ := marked_pass c d
  exact (Scene.upholds_reconcile c.scene _).marked marked

def mail (c : Canvas) : Mail := ⟨c.scene.slips, c.queue.pending⟩

@[simp] theorem mail_markSelection (c : Canvas) : c.markSelection.mail = c.mail :=
  congrArg (Mail.mk · c.queue.pending) (Scene.slips_mapCables fun _ _ => rfl)

@[simp] theorem mail_clearTarget (c : Canvas) : c.clearTarget.mail = c.mail := by
  unfold clearTarget
  split <;> rfl

theorem mail_aim (c : Canvas) (target : Option JackRef) : (c.aim target).mail = c.mail := by
  unfold aim
  split
  · rfl
  · split
    · exact mail_clearTarget c
    · dsimp only
      split
      · exact mail_clearTarget c
      · exact mail_clearTarget c

theorem followMoved_slip (s : Scene) (moved : List Nat) (x : Cable) :
    Scene.slip (followMoved s moved x) = Scene.slip x := by
  rw [followMoved_eq]
  rfl

@[simp] theorem mail_follow (c : Canvas) (moved : List Nat) : (c.follow moved).mail = c.mail :=
  congrArg (Mail.mk · c.queue.pending)
    (Scene.slips_mapCables fun _ => followMoved_slip c.scene moved)

@[simp] theorem mail_showOffset (c : Canvas) (offset : Point) :
    (c.showOffset offset).mail = c.mail :=
  mail_follow _ _

theorem mail_dropLostDrag (c : Canvas) : c.dropLostDrag.mail = c.mail := by
  unfold dropLostDrag
  split
  · exact mail_clearTarget _
  · rfl

theorem mail_cancelSegment (c : Canvas) : c.cancelSegment.mail = c.mail := by
  unfold cancelSegment
  split
  · exact congrArg (Mail.mk · c.queue.pending) (Scene.slips_updateCable fun _ => rfl)
  · rfl

theorem mail_cancelDrag (c : Canvas) : c.cancelDrag.mail = c.mail := by
  unfold cancelDrag
  split
  · rfl
  · exact mail_follow _ _
  · exact mail_follow _ _
  · exact mail_clearTarget _
  · exact mail_cancelSegment c
  · rfl

theorem mail_setLocked (c : Canvas) (locked : Bool) : (c.setLocked locked).mail = c.mail := by
  unfold setLocked
  split
  · exact (mail_markSelection _).trans (mail_cancelDrag c)
  · rfl

theorem mail_selectBox (c : Canvas) (key : Nat) (toggle : Bool) :
    (c.selectBox key toggle).mail = c.mail := by
  unfold selectBox
  split
  · rfl
  · exact mail_markSelection _

theorem mail_selectCable (c : Canvas) (key : Nat) (toggle : Bool) :
    (c.selectCable key toggle).mail = c.mail := by
  unfold selectCable
  split
  · rfl
  · exact mail_markSelection _

theorem mail_beginLasso (c : Canvas) (position : Point) : (c.beginLasso position).1.mail = c.mail := by
  unfold beginLasso
  split
  · rfl
  · exact mail_markSelection _

theorem mail_updateLasso (c : Canvas) (position : Point) : (c.updateLasso position).mail = c.mail := by
  unfold updateLasso
  split <;> rfl

theorem mail_endLasso (c : Canvas) : c.endLasso.1.mail = c.mail := by
  unfold endLasso
  split
  · exact mail_markSelection _
  · rfl

theorem mail_beginMove (c : Canvas) (grabbed : Nat) (position : Point) :
    (c.beginMove grabbed position).1.mail = c.mail := by
  unfold beginMove
  split
  · rfl
  · dsimp only
    split
    · rfl
    · exact mail_markSelection _

theorem mail_dragMove (c : Canvas) (position : Point) (bypass : Bool) (now : Nat) :
    (c.dragMove position bypass now).1.mail = c.mail := by
  unfold dragMove
  split
  · split
    · rfl
    · exact mail_showOffset _ _
  · rfl

theorem mail_beginResize (c : Canvas) (key : Nat) (edges : Edges) (position : Point) :
    (c.beginResize key edges position).1.mail = c.mail := by
  unfold beginResize
  split <;> rfl

theorem mail_dragResize (c : Canvas) (position : Point) (bypass : Bool) (now : Nat) :
    (c.dragResize position bypass now).1.mail = c.mail := by
  unfold dragResize
  split
  · split
    · rfl
    · exact mail_follow _ _
  · rfl

theorem mail_endResize (c : Canvas) (d : δ) : (c.endResize d).1.mail = c.mail := by
  unfold endResize
  split
  · dsimp only
    split
    · rfl
    · split
      · rfl
      · split <;> rfl
  · rfl

theorem mail_alignSelection (c : Canvas) (d : δ) (a : Alignment) :
    (c.alignSelection d a).1.mail = c.mail := by
  unfold alignSelection
  split
  · rfl
  · dsimp only
    split
    · rfl
    · split
      · rfl
      · refine (mail_follow _ _).trans (congrArg (Mail.mk · c.queue.pending) ?_)
        exact Scene.slips_congr (placed_foldl c.requestSync.scene _).2.1

theorem mail_beginConnection (c : Canvas) (jack : JackRef) (multi : Bool) :
    (c.beginConnection jack multi).1.mail = c.mail := by
  unfold beginConnection
  split
  · rfl
  · split <;> rfl

theorem mail_dragConnection (c : Canvas) (position : Point) :
    (c.dragConnection position).1.mail = c.mail := by
  unfold dragConnection
  split
  · dsimp only
    split
    · rfl
    · exact mail_aim _ _
  · rfl

theorem mail_endConnection (c : Canvas) (d : δ) : (c.endConnection d).1.mail = c.mail := by
  unfold endConnection
  split
  · dsimp only
    split
    · exact mail_clearTarget _
    · split
      · exact mail_clearTarget _
      · exact mail_clearTarget _
  · rfl

theorem mail_cancelConnection (c : Canvas) : c.cancelConnection.mail = c.mail := by
  unfold cancelConnection
  split
  · exact mail_clearTarget _
  · rfl

theorem mail_beginSegment (c : Canvas) (key : Nat) (position : Point) :
    (c.beginSegment key position).1.mail = c.mail := by
  unfold beginSegment
  split
  · rfl
  · split
    · split
      · rfl
      · split <;> rfl
    · rfl

theorem mail_dragSegment (c : Canvas) (position : Point) :
    (c.dragSegment position).1.mail = c.mail := by
  unfold dragSegment
  split
  · split
    · rfl
    · split
      · rfl
      · exact congrArg (Mail.mk · c.queue.pending) (Scene.slips_updateCable fun _ => rfl)
  · rfl

theorem mail_reanchorCable (c : Canvas) (key : Nat) : (c.reanchorCable key).1.mail = c.mail := by
  unfold reanchorCable
  split
  · exact congrArg (Mail.mk · c.queue.pending) (Scene.slips_updateCable fun _ => rfl)
  · rfl

theorem mail_placeBlank (c : Canvas) (position : Point) :
    (c.placeBlank position).1.mail = c.mail := by
  unfold placeBlank
  split
  · rfl
  · exact mail_markSelection _

theorem mail_cancelBlank (c : Canvas) (key : Nat) : (c.cancelBlank key).1.mail = c.mail := by
  unfold cancelBlank
  split
  · exact congrArg (Mail.mk · c.queue.pending)
      (Scene.slips_congr (c.scene.cableArena_removeBox key))
  · rfl

theorem mail_commitBlank (c : Canvas) (d : δ) (key : Nat) (text : String) :
    (c.commitBlank d key text).1.mail = c.mail := by
  unfold commitBlank
  split
  · rfl
  · split
    · rfl
    · dsimp only
      split
      · exact mail_cancelBlank c key
      · split <;> rfl

end Canvas

end Patchbay
