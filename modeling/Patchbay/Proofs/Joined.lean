import Patchbay.Patch.Json
import Patchbay.Proofs.Calls
import Patchbay.Proofs.Settled

/-!
# A canvas that stays with one patch

A canvas and a patch that start together stay in step, whatever is done with the canvas and whatever
is done to the patch behind its back: the handles in the scene are handles that the patch has given
out, so a new node never gets the handle of a box.
-/

namespace Patchbay

open Keyed (keys)

/-! ## Patches as they are loaded -/

namespace Contents

theorem mem_putNode {h : Nat} {n : Node} {nodes : Keyed Node} {k : Nat × Node}
    (there : k ∈ putNode h n nodes) : k = (h, n) ∨ k ∈ nodes := by
  induction nodes with
  | nil => exact .inl (List.mem_singleton.1 there)
  | cons j nodes ih =>
    rw [putNode] at there
    split at there
    · next same =>
      rcases List.mem_cons.1 there with rfl | there
      · exact .inl (same ▸ rfl)
      · exact .inr (List.mem_cons_of_mem _ there)
    · rcases List.mem_cons.1 there with rfl | there
      · exact .inr List.mem_cons_self
      · exact (ih there).imp_right (List.mem_cons_of_mem _)

theorem mem_keys_putNode {h k : Nat} {n : Node} {nodes : Keyed Node}
    (there : k ∈ keys (putNode h n nodes)) : k = h ∨ k ∈ keys nodes := by
  obtain ⟨x, hx, rfl⟩ := List.mem_map.1 there
  exact (mem_putNode hx).imp (congrArg Prod.fst) List.mem_map_of_mem

theorem nodup_putNode {h : Nat} {n : Node} {nodes : Keyed Node} (nodup : (keys nodes).Nodup) :
    (keys (putNode h n nodes)).Nodup := by
  induction nodes with
  | nil => exact List.nodup_singleton h
  | cons x rest ih =>
    obtain ⟨j, m⟩ := x
    obtain ⟨apart, rest⟩ := List.nodup_cons.1 nodup
    simp only [putNode]
    split
    · next same => exact same ▸ nodup
    · next other =>
      refine List.nodup_cons.2 ⟨fun there => ?_, ih rest⟩
      exact (mem_keys_putNode there).elim other apart

theorem nodup_putMembers {ms : List (Json.Text × Json)} {nodes made : Keyed Node}
    (nodup : (keys nodes).Nodup) (put : putMembers ms nodes = some made) : (keys made).Nodup := by
  induction ms generalizing nodes with
  | nil => exact Option.some.inj put ▸ nodup
  | cons m ms ih =>
    simp only [putMembers, Option.bind_eq_bind, Option.bind_eq_some_iff] at put
    obtain ⟨h, -, n, -, put⟩ := put
    exact ih (nodup_putNode nodup) put

theorem nodup_nodes? {j : Json} {nodes : Keyed Node} (made : nodes? j = some nodes) :
    (keys nodes).Nodup := by
  have none : (keys ([] : Keyed Node)).Nodup := List.nodup_nil
  unfold nodes? at made
  split at made
  · exact nodup_putMembers none made
  · exact absurd made (by simp)

theorem lt_highest? {c : Contents} {x : Entity} (there : x ∈ c.entities) :
    x.handle < c.highest?.getD 0 + 1 := by
  have used : x.handle ∈ keys c.nodes ++ c.wires.map (·.handle) := by
    rcases mem_entities.1 there with ⟨k, hk, rfl⟩ | ⟨w, hw, rfl⟩
    · exact List.mem_append_left _ hk
    · exact List.mem_append_right _ (List.mem_map_of_mem hw)
  rw [highest?]
  exact Nat.lt_succ_of_le (List.le_max?_getD_of_mem used)

end Contents

namespace Patch

/-- How a patch starts out: empty, or read from a text. -/
inductive Loaded : Patch → Prop
  | empty : Loaded {}
  | parsed {text : String} {p : Patch} (read : parse? text = some p) : Loaded p

theorem exists_of_parse? {text : String} {p : Patch} (read : parse? text = some p) :
    ∃ c : Contents, ∃ next, (keys c.nodes).Nodup ∧
      p = { toContents := c, next := max next (c.highest?.getD 0 + 1) } := by
  obtain ⟨j, -, read⟩ := Option.bind_eq_some_iff.1 read
  simp only [ofJson?, Option.bind_eq_bind, Option.bind_eq_some_iff] at read
  obtain ⟨fields, -, read⟩ := read
  split at read
  · simp only [Option.bind_eq_some_iff] at read
    obtain ⟨nodes, hnodes, wires, -, next, -, read⟩ := read
    obtain ⟨-, read⟩ := Option.ite_none_right_eq_some.1 read
    obtain ⟨json, -, hnodes⟩ := Option.bind_eq_some_iff.1 hnodes
    exact ⟨⟨nodes, wires⟩, next, Contents.nodup_nodes? hnodes, (Option.some.inj read).symm⟩
  · exact absurd read (by simp)

theorem Loaded.bounded {p : Patch} (loaded : p.Loaded) : p.Bounded := by
  cases loaded with
  | empty => exact ⟨.nil, fun _ hx => absurd hx List.not_mem_nil⟩
  | parsed read =>
    obtain ⟨c, next, nodup, rfl⟩ := exists_of_parse? read
    refine ⟨nodup, fun x hx => ?_⟩
    rcases List.mem_append.1 hx with hx | hx
    · exact Nat.lt_of_lt_of_le (Contents.lt_highest? hx) (Nat.le_max_right _ _)
    · exact absurd hx List.not_mem_nil

theorem Loaded.history {p : Patch} (loaded : p.Loaded) : p.history = {} := by
  cases loaded with
  | empty => rfl
  | parsed read =>
    obtain ⟨c, next, -, rfl⟩ := exists_of_parse? read
    rfl

end Patch

/-! ## What calls make of a patch -/

namespace Patch

variable {p q r : Patch}

/-- What a call makes of a patch that it finds in order. -/
structure Leads (p q : Patch) : Prop where
  follows : p.Bounded → p.Follows q

theorem Leads.refl (p : Patch) : p.Leads p := ⟨Follows.refl⟩

theorem Leads.trans (h₁ : p.Leads q) (h₂ : q.Leads r) : p.Leads r := ⟨fun bounded =>
  (h₁.follows bounded).trans (h₂.follows (h₁.follows bounded).bounded)⟩

theorem leads_inSequence {α : Type} {body : Patch → Patch × α} (label : String)
    (leads : ∀ q : Patch, q.Leads (body q).1) : p.Leads (Document.inSequence p label body).1 :=
  (Leads.trans ⟨(openSequence_evolves p label).follows⟩ (leads _)).trans
    ⟨(closeSequence_evolves _).follows⟩

theorem leads_editAll {β : Type} {edit : Patch → β → Except EditError Patch}
    (leads : ∀ {q b r}, edit q b = .ok r → q.Leads r) (bs : List β) :
    p.Leads (Document.editAll edit p bs).1 := by
  induction bs generalizing p with
  | nil => exact .refl p
  | cons b bs ih =>
    simp only [Document.editAll]
    split
    · next made => exact (leads made).trans ih
    · exact .refl p

theorem leads_writeOne (written : Nat) (entry : Nat × String) :
    p.Leads (WriteQueue.writeOne (p, written) entry).1 := by
  simp only [WriteQueue.writeOne]
  split
  · split
    · next made => exact ⟨(setToken_evolves made).follows⟩
    · exact .refl p
  · exact .refl p

theorem leads_flush (queue : WriteQueue) : p.Leads (queue.flush p).2.1 := by
  unfold WriteQueue.flush
  split
  · exact .refl p
  · refine leads_inSequence _ fun q => ?_
    refine List.foldlRecOn (motive := fun state : Patch × Nat => q.Leads state.1) _ _ (.refl q) ?_
    rintro ⟨r, written⟩ hr entry -
    exact hr.trans (leads_writeOne written entry)

theorem leads_push (queue : WriteQueue) (handle : Nat) (token : String) (now : Nat) :
    p.Leads (queue.push p handle token now).2 := by
  unfold WriteQueue.push
  dsimp only
  split
  · exact leads_flush queue
  · exact .refl p

end Patch

namespace Canvas

open Patch (Leads)

variable {c : Canvas} {p q : Patch}

theorem leads_sync (c : Canvas) (p : Patch) : p.Leads (c.sync p).2.1 :=
  Leads.trans ⟨(Patch.deliver_evolves _).follows⟩
    ⟨(Patch.deliver_evolves _).follows⟩

theorem leads_idle (c : Canvas) (p : Patch) : p.Leads (c.idle p).2.1 := by
  unfold idle
  split
  · exact .refl p
  · exact leads_sync c p

theorem leads_pushToken (c : Canvas) (p : Patch) (key : Nat) (token : String) (now : Nat) :
    p.Leads (c.pushToken p key token now).2 := by
  unfold pushToken
  split
  · exact .refl p
  · exact Patch.leads_push c.queue _ token now

theorem leads_routeCable (c : Canvas) (p : Patch) (key now : Nat) :
    p.Leads (c.routeCable p key now).2.1 := by
  unfold routeCable
  split
  · exact leads_pushToken ..
  · exact .refl p

theorem leads_routeBlocked (c : Canvas) (p : Patch) (moved : List Nat) (now : Nat) :
    p.Leads (c.routeBlocked p moved now).2 :=
  routeBlocked_induction (P := fun state => p.Leads state.2) moved now
    (fun b q key leads => leads.trans (leads_routeCable b q key now)) (.refl p)

theorem leads_straightenCable (c : Canvas) (p : Patch) (key now : Nat) :
    p.Leads (c.straightenCable p key now).2.1 := by
  unfold straightenCable
  split
  · exact .refl p
  · exact leads_pushToken ..

theorem leads_endSegment (c : Canvas) (p : Patch) (now : Nat) :
    p.Leads (c.endSegment p now).2.1 := by
  unfold endSegment
  split
  · dsimp only
    split
    · split
      · exact .refl p
      · exact leads_pushToken ..
    · exact .refl p
  · exact .refl p

theorem leads_endMove (c : Canvas) (p : Patch) (now : Nat) : p.Leads (c.endMove p now).2.1 := by
  have moves (p : Patch) (handles : List Nat) (offset : Point) : p.Leads (Document.inSequence p
      moveLabel fun d => Document.editAll (fun d h => Document.moveNode d h offset) d handles).1 :=
    Patch.leads_inSequence _ fun q => Patch.leads_editAll
      (fun made => ⟨(Patch.moveNode_evolves made).follows⟩) handles
  unfold endMove
  split
  · dsimp only
    split
    · exact .refl p
    · split
      · exact moves ..
      · split
        · exact (moves ..).trans (leads_routeBlocked ..)
        · exact moves ..
  · exact .refl p

theorem leads_endResize (c : Canvas) (p : Patch) : p.Leads (c.endResize p).2.1 := by
  unfold endResize
  split
  · dsimp only
    split
    · exact .refl p
    · split
      · exact .refl p
      · split
        · exact .refl p
        · refine Patch.leads_inSequence _ fun q => Patch.leads_editAll ?_ _
          exact fun made => ⟨(Patch.setBounds_evolves made).follows⟩
  · exact .refl p

theorem leads_alignSelection (c : Canvas) (p : Patch) (a : Alignment) :
    p.Leads (c.alignSelection p a).2.1 := by
  have moves (p : Patch) (ms : Keyed (Nat × Point)) : p.Leads (Document.inSequence p alignLabel
      fun d => Document.editAll (fun d (m : Nat × Nat × Point) =>
        Document.moveNodeTo d m.2.1 m.2.2) d ms).1 :=
    Patch.leads_inSequence _ fun q => Patch.leads_editAll
      (fun made => ⟨(Patch.moveNodeTo_evolves made).follows⟩) ms
  unfold alignSelection
  split
  · exact .refl p
  · dsimp only
    split
    · exact .refl p
    · split <;> exact moves ..

theorem leads_deleteSelection (c : Canvas) (p : Patch) :
    p.Leads (c.deleteSelection p).2.1 := by
  have cut (q : Patch) (wires : List (Ends × String)) : q.Leads (Document.editAll
      (fun d (w : Ends × String) => Document.disconnect d w.1 w.2) q wires).1 :=
    Patch.leads_editAll (fun made => ⟨(Patch.disconnect_evolves made).follows⟩) wires
  have removed (q : Patch) (handles : List Nat) : q.Leads (if handles.isEmpty then (q, .ok ())
      else Document.editAll Document.removeNodes q [handles]).1 := by
    split
    · exact .refl q
    · exact Patch.leads_editAll
        (fun made => ⟨(Patch.removeNodes_evolves made).follows⟩) _
  unfold deleteSelection
  split
  · exact .refl p
  · dsimp only
    -- Whatever the answer is, the document is the old one or that after the whole sequence.
    split <;> split <;> dsimp only
    any_goals exact .refl p
    all_goals
      refine Patch.leads_inSequence _ fun q => ?_
      have first := cut q c.looseWires
      split
      · next heq => exact heq ▸ first
      · next heq =>
        rw [heq] at first
        exact first.trans (removed _ _)

theorem leads_connectOne (p : Patch) (made : List Nat) (e : Ends) :
    p.Leads (connectOne (p, made) e).1 := by
  unfold connectOne
  dsimp only
  split
  · next made => exact ⟨(Patch.connect_evolves made).follows⟩
  · exact .refl p

theorem leads_endConnection (c : Canvas) (p : Patch) : p.Leads (c.endConnection p).2.1 := by
  unfold endConnection
  split
  · dsimp only
    split
    · exact .refl p
    · split
      · exact .refl p
      · dsimp only
        refine Patch.leads_inSequence _ fun q => ?_
        refine List.foldlRecOn (motive := fun state : Patch × List Nat => q.Leads state.1) _ _
          (.refl q) ?_
        rintro ⟨r, made⟩ hr e -
        exact hr.trans (leads_connectOne r made e)
  · exact .refl p

theorem leads_commitBlank (c : Canvas) (p : Patch) (key : Nat) (text : String) :
    p.Leads (c.commitBlank p key text).2.1 := by
  unfold commitBlank
  split
  · exact .refl p
  · split
    · exact .refl p
    · dsimp only
      split
      · exact .refl p
      · split <;>
          exact Patch.leads_inSequence _ fun q =>
            ⟨(Patch.createNode_evolves q _ _).follows⟩

theorem Call.leads (call : Call) (c : Canvas) (p : Patch) : p.Leads (call.run c p).2 := by
  cases call with
  | sync => exact leads_sync c p
  | idle => exact leads_idle c p
  | endMove now => exact leads_endMove c p now
  | endResize => exact leads_endResize c p
  | deleteSelection => exact leads_deleteSelection c p
  | alignSelection a => exact leads_alignSelection c p a
  | endConnection => exact leads_endConnection c p
  | endSegment now => exact leads_endSegment c p now
  | routeCable key now => exact leads_routeCable c p key now
  | straightenCable key now => exact leads_straightenCable c p key now
  | pushToken key token now => exact leads_pushToken c p key token now
  | tick now =>
    simp only [run, Canvas.tick, WriteQueue.tick]
    split
    · exact Patch.leads_flush c.queue
    · exact .refl p
  | flushTokens => exact Patch.leads_flush c.queue
  | commitBlank key text => exact leads_commitBlank c p key text
  | _ => exact .refl p

/-! ## Runs with one patch -/

/-- A canvas and a patch that go together: every handle in the scene has been given out. -/
structure Joined (c : Canvas) (p : Patch) : Prop where
  wf : c.scene.WellFormed
  bounded : p.Bounded
  below : ∀ h ∈ c.scene.handles, h < p.next

theorem handles_removeBox (s : Scene) (ks : List Nat) :
    (ks.foldl Scene.removeBox s).handles.Sublist s.handles := by
  rw [Scene.handles, Scene.boxes_foldl_removeBox]
  exact List.filter_sublist.filterMap _

theorem handles_commit (key handle : Nat) (bs : Keyed Box) :
    ∀ h ∈ (Keyed.update bs key fun b =>
        { b with handle := some handle, editing := false }).filterMap (·.2.handle),
      h = handle ∨ h ∈ bs.filterMap (·.2.handle) := by
  intro h there
  obtain ⟨e, he, named⟩ := List.mem_filterMap.1 there
  rcases Keyed.of_mem_update he with ⟨he, -⟩ | ⟨b, -, rfl⟩
  · exact Or.inr (List.mem_filterMap.2 ⟨e, he, named⟩)
  · exact Or.inl (Option.some.inj named).symm

theorem nodup_handles_commit {key handle : Nat} {bs : Keyed Box} (nodup : (keys bs).Nodup)
    (distinct : (bs.filterMap (·.2.handle)).Nodup) (fresh : handle ∉ bs.filterMap (·.2.handle)) :
    ((Keyed.update bs key fun b =>
      { b with handle := some handle, editing := false }).filterMap (·.2.handle)).Nodup := by
  induction bs with
  | nil => exact List.nodup_nil
  | cons e rest ih =>
    obtain ⟨k, b⟩ := e
    obtain ⟨apart, nodup⟩ := List.nodup_cons.1 nodup
    have later : rest.filterMap (·.2.handle) ⊆ ((k, b) :: rest).filterMap (·.2.handle) :=
      ((List.sublist_cons_self (k, b) rest).filterMap _).subset
    have distinct' := distinct.sublist ((List.sublist_cons_self (k, b) rest).filterMap _)
    have fresh' : handle ∉ rest.filterMap (·.2.handle) := fun there => fresh (later there)
    by_cases here : k = key
    · subst here
      have kept : Keyed.update rest k (fun b =>
          { b with handle := some handle, editing := false }) = rest :=
        (Keyed.update_congr (g := id) fun b hb => absurd (Keyed.mem_keys_of_mem hb) apart).trans
          Keyed.update_id
      simp only [Keyed.update, List.map_cons, if_true] at kept ⊢
      rw [kept]
      exact List.nodup_cons.2 ⟨fresh', distinct'⟩
    · have step := ih nodup distinct' fresh'
      have known := handles_commit key handle rest
      simp only [Keyed.update, List.map_cons, here, if_false] at step known ⊢
      cases named : b.handle with
      | none =>
        simpa only [List.filterMap_cons, named] using step
      | some h =>
        simp only [List.filterMap_cons, named] at distinct fresh ⊢
        refine List.nodup_cons.2 ⟨fun there => ?_, step⟩
        rcases known h there with rfl | there
        · exact fresh List.mem_cons_self
        · exact (List.nodup_cons.1 distinct).1 there

theorem Outcome.joined {s t : Scene} {p q : Patch} (outcome : Outcome s p t q) (wf : s.WellFormed)
    (bounded : p.Bounded) (below : ∀ h ∈ s.handles, h < p.next) (follows : p.Follows q) :
    t.WellFormed ∧ ∀ h ∈ t.handles, h < q.next := by
  have later {h : Nat} (low : h < p.next) : h < q.next := Nat.lt_of_lt_of_le low follows.next
  obtain ⟨regular, distinct⟩ := Scene.wellFormed_iff.1 wf
  have stays := outcome.regular regular
  suffices known : t.handles.Nodup ∧ ∀ h ∈ t.handles, h < q.next from
    ⟨Scene.wellFormed_iff.2 ⟨stays, known.1⟩, known.2⟩
  cases outcome with
  | same outline =>
    rw [Scene.handles_of_outline outline]
    exact ⟨distinct, fun h hh => later (below h hh)⟩
  | reconciled outline =>
    obtain ⟨shown, settled, -⟩ := wf.settled (c := p.toContents) bounded.nodup
    have reconciled := settled.wf
    rw [Scene.handles_of_outline outline]
    refine ⟨reconciled.handles, fun h hh => later ?_⟩
    obtain ⟨e, he, named⟩ := List.mem_filterMap.1 hh
    exact bounded.sound.nodes_below h (settled.known he named)
  | placed position outline =>
    rw [Scene.handles_of_outline outline]
    have same : (s.addBox (Box.blank position)).2.handles = s.handles := by
      rw [Scene.handles, Scene.boxes_addBox wf.boxOrder]
      simp [Scene.handles, Box.blank]
    rw [same]
    exact ⟨distinct, fun h hh => later (below h hh)⟩
  | dropped keys blank outline =>
    rw [Scene.handles_of_outline outline]
    have fewer := handles_removeBox s keys
    exact ⟨distinct.sublist fewer, fun h hh => later (below h (fewer.subset hh))⟩
  | committed key handle text position made blank created closed outline =>
    obtain ⟨rfl, rfl⟩ := Prod.mk.inj (Except.ok.inj created)
    have low : p.next ≤ (p.openSequence createLabel).freshHandle := Nat.le_max_left _ _
    have high : (p.openSequence createLabel).freshHandle < q.next := by
      rw [closed]
      exact Nat.lt_succ_self _
    have fresh : (p.openSequence createLabel).freshHandle ∉ s.handles := fun there =>
      absurd (below _ there) (by omega)
    rw [Scene.handles_of_outline outline, Scene.handles, Scene.boxes_updateBox]
    refine ⟨nodup_handles_commit wf.boxes distinct fresh, fun h hh => ?_⟩
    rcases handles_commit _ _ _ h hh with rfl | old
    · exact high
    · exact later (below h old)

theorem Joined.call {c : Canvas} {p : Patch} (joined : Joined c p) (call : Call) :
    Joined (call.run c p).1 (call.run c p).2 := by
  have follows := (call.leads c p).follows joined.bounded
  obtain ⟨wf, below⟩ := (call.outcome c p).joined joined.wf joined.bounded joined.below follows
  exact ⟨wf, follows.bounded, below⟩

theorem Joined.mutate {c : Canvas} {p : Patch} (joined : Joined c p) (m : Patch.Mutation) :
    Joined c (m.run p) := by
  have follows := m.follows joined.bounded
  exact ⟨joined.wf, follows.bounded, fun h hh => Nat.lt_of_lt_of_le (joined.below h hh) follows.next⟩

/-- What can happen to a canvas and the patch that it stays with. -/
inductive Event where
  | call (made : Call)
  | mutate (m : Patch.Mutation)

def Event.run : Event → Canvas × Patch → Canvas × Patch
  | call made, (c, p) => made.run c p
  | mutate m, (c, p) => (c, m.run p)

def play (settings : CanvasSettings) (p : Patch) (events : List Event) : Canvas × Patch :=
  events.foldl (fun state e => e.run state) (ofSettings settings, p)

theorem reached_play (settings : CanvasSettings) (p : Patch) (events : List Event) :
    Reached (play settings p events).1 := by
  refine List.foldlRecOn (motive := fun state : Canvas × Patch => Reached state.1) _ _
    (.ofSettings settings) ?_
  rintro ⟨c, q⟩ reached (made | m) -
  · exact reached.call q made
  · exact reached

/-- A new canvas and a patch as it was loaded go together for good. -/
theorem joined_play (settings : CanvasSettings) {p : Patch} (loaded : p.Loaded)
    (events : List Event) : Joined (play settings p events).1 (play settings p events).2 := by
  have start : Joined (ofSettings settings) p := by
    refine ⟨Scene.wellFormed_empty, loaded.bounded, fun h hh => ?_⟩
    have none : ({} : Scene).handles = [] := by decide +kernel
    exact absurd (none ▸ hh : h ∈ []) List.not_mem_nil
  refine List.foldlRecOn (motive := fun state : Canvas × Patch => Joined state.1 state.2) _ _
    start ?_
  rintro ⟨c, q⟩ joined (made | m) -
  · exact joined.call made
  · exact joined.mutate m

end Canvas

end Patchbay
