import Patchbay.Proofs.Joined
import Patchbay.Proofs.Rewired
import Patchbay.Proofs.Token

/-!
# A scene kept up to date and a new one

A scene that no gesture touches is kept in line with a patch through any history of it. In the end it
shows what a new scene of the same patch shows: the same boxes in the same order, the same stack, and
for each wire the same cable with the same token. Only a route can differ: one that did not fit
between its anchors at a pass is lost, and straight until its token changes.
-/

namespace Patchbay

open Keyed (keys)

namespace Scene

def pass (s : Scene) (p : Patch) : Scene × Patch :=
  let p : Patch := Document.deliver (Document.deliver p)
  ((s.reconcile (Document.listing p)).1, p)

/-- What happens to a scene without gestures and to its patch. -/
inductive Turn where
  | pass
  | mutate (m : Patch.Mutation)

def Turn.run : Turn → Scene × Patch → Scene × Patch
  | pass, (s, p) => s.pass p
  | mutate m, (s, p) => (s, m.run p)

def attend (p : Patch) (turns : List Turn) : Scene × Patch :=
  turns.foldl (fun state turn => turn.run state) ({}, p)

/-- The documents of the passes among some turns. -/
def visits : Scene × Patch → List Turn → List Contents
  | _, [] => []
  | (s, p), .pass :: turns => (s.pass p).2.toContents :: visits (s.pass p) turns
  | (s, p), .mutate m :: turns => visits (s, m.run p) turns

/-- The scene after some turns and one more pass, and a new scene of the same patch. -/
def sideBySide (p : Patch) (turns : List Turn) : Scene × Scene :=
  let (s, q) := attend p turns
  let (seen, q) := s.pass q
  (seen, (({} : Scene).pass q).1)

/-- Wires of a handle all have the same ends. -/
def Unambiguous (p : Patch) (h : Nat) : Prop :=
  ∀ v ∈ p.wires, ∀ w ∈ p.wires, v.handle = h → w.handle = h → v.ends = w.ends

structure Attended (origin : Patch) (passed : List Contents) (s : Scene) (p : Patch) : Prop where
  wf : s.WellFormed
  pristine : s.Pristine
  cables : ∀ x ∈ s.cables, x.2.Pristine passed
  numbered : s.Numbered
  bounded : p.Bounded
  loyal : ∀ h, Unambiguous origin h → Loyal p s h

variable {origin p q : Patch} {passed : List Contents} {s : Scene} {h : Nat}

theorem Unambiguous.loyal (unambiguous : Unambiguous origin h) (loaded : origin.Loaded)
    (none : s.cables = []) : Loyal origin s h where
  coherent e e' he he' := by
    have wire (e : Ends) (he : Entity.wire h e ∈ origin.entities) :
        ∃ w ∈ origin.wires, w.handle = h ∧ w.ends = e := by
      rcases List.mem_append.1 he with he | he
      · rcases Contents.mem_entities.1 he with ⟨_, _, other⟩ | ⟨w, hw, same⟩
        · exact absurd other (by simp)
        · obtain ⟨rfl, rfl⟩ := Entity.wire.inj same
          exact ⟨w, hw, rfl, rfl⟩
      · rw [loaded.history] at he
        exact absurd he List.not_mem_nil
    obtain ⟨v, hv, hvh, rfl⟩ := wire e he
    obtain ⟨w, hw, hwh, rfl⟩ := wire e' he'
    exact unambiguous v hv w hw hvh hwh
  held x hx := absurd (none ▸ hx) List.not_mem_nil

theorem boxes_empty : ({} : Scene).boxes = [] := by decide +kernel

theorem cables_empty : ({} : Scene).cables = [] := by decide +kernel

theorem pristine_empty : ({} : Scene).Pristine :=
  ⟨fun _ he => absurd (boxes_empty ▸ he) List.not_mem_nil, fun _ hy => absurd hy List.not_mem_nil⟩

theorem Attended.start (loaded : origin.Loaded) : Attended origin [] {} origin :=
  ⟨wellFormed_empty, pristine_empty, fun _ hx => absurd (cables_empty ▸ hx) List.not_mem_nil,
    numbered_empty, loaded.bounded,
    fun _ unambiguous => unambiguous.loyal loaded cables_empty⟩

theorem Attended.follows (attended : Attended origin passed s p) (follows : p.Follows q) :
    Attended origin passed s q :=
  ⟨attended.wf, attended.pristine, attended.cables, attended.numbered, follows.bounded,
    fun h unambiguous => (attended.loyal h unambiguous).follows attended.bounded follows⟩

theorem Attended.delivered (attended : Attended origin passed s p) :
    Attended origin passed s (s.pass p).2 := by
  have once := attended.follows (p.deliver_evolves.follows attended.bounded)
  exact once.follows (p.deliver.deliver_evolves.follows once.bounded)

theorem Attended.pass (attended : Attended origin passed s p) :
    Attended origin (passed ++ [(s.pass p).2.toContents]) (s.pass p).1 (s.pass p).2 := by
  obtain ⟨wf, pristine, cables, numbered, bounded, loyal⟩ := attended.delivered
  obtain ⟨shown, t, report, course⟩ := wf.course (c := (s.pass p).2.toContents) bounded.nodup
  obtain ⟨pristine', clear⟩ := course.clear pristine
  exact ⟨wf.reconcile bounded.nodup, pristine',
    course.pristine_cables wf bounded.nodup clear.boxes cables, numbered.reconcile _, bounded,
    fun h unambiguous => course.loyal wf bounded rfl (loyal h unambiguous)⟩

theorem Attended.run (attended : Attended origin passed s p) (turns : List Turn) :
    let state := turns.foldl (fun state turn => turn.run state) (s, p)
    Attended origin (passed ++ visits (s, p) turns) state.1 state.2 := by
  induction turns generalizing s p passed with
  | nil => simpa [visits] using attended
  | cons turn turns ih =>
    cases turn with
    | pass =>
      have rest := ih attended.pass
      rw [List.append_assoc] at rest
      exact rest
    | mutate m => exact ih (attended.follows (m.follows attended.bounded))

theorem pictures_empty {c : Contents} (nodup : (keys c.nodes).Nodup) (h : Nat) :
    Pictures c (boxesOf c.nodes) (fun r token a b => r = (Route.raw token).reanchor a b) h
      ((({} : Scene).reconcile c.listing).1.drawing? h) := by
  have regular := (wellFormed_iff.1 wellFormed_empty).1
  obtain ⟨owner, rewired⟩ := regular.rewired (c := c) numbered_empty nodup
  refine rewired.pictures nodup (fun x hx => absurd (cables_empty ▸ hx) List.not_mem_nil) ?_
  intro old e w outlet inlet a b x _ former _ draft
  cases draft with
  | fresh => exact ⟨rfl, Route.ofToken_eq _ _ _⟩
  | kept mem => exact absurd (cables_empty ▸ former _ mem) List.not_mem_nil

/-- Cables between the same jacks, with the same token. -/
structure Drawing.Matches (kept fresh : Drawing) : Prop where
  outlet : kept.outlet = fresh.outlet
  inlet : kept.inlet = fresh.inlet
  token : kept.token = fresh.token

/-- How a cable that was kept compares to one newly drawn: its route is the same, or was lost. -/
structure Drawing.Recovers (lost : String → Prop) (kept fresh : Drawing) : Prop
    extends kept.Matches fresh where
  route : kept.route = fresh.route ∨ kept.route = .straight ∧ lost fresh.token

theorem Drawing.recovers_refl (lost : String → Prop) (drawing : Option Drawing) :
    Option.Rel (Recovers lost) drawing drawing := by
  cases drawing with
  | none => exact .none
  | some drawing => exact .some ⟨⟨rfl, rfl, rfl⟩, Or.inl rfl⟩

/-- Some document that was passed over has a wire of a handle with the plan of a token, which does not
fit between its ends there. -/
def Loses (passed : List Contents) (h : Nat) (token : String) : Prop :=
  ∃ a b, Seen passed h token a b ∧ (Route.raw token).Misfits a b

/-- A plan whose outer pieces join horizontal ones fits everywhere, so nothing loses it. -/
theorem not_loses_of_isPliable {token : String} {ps : Plan} (read : Token.decode token = .ok ps)
    (pliable : ps.isPliable = true) : ¬Loses passed h token := by
  rintro ⟨a, b, -, planned, lost⟩
  have raw : Route.raw token = .segmented ps :=
    Route.raw_of_decode read fun bare => planned (if_pos bare)
  have valid : ps.isValid = true := (Token.of_decode read).2.1
  have kept : (Route.raw token).reanchor a b = .segmented (ps.anchor a b) := by
    rw [raw]
    exact Route.reanchor_eq_segmented_iff.2 ⟨valid, Plan.isValid_anchor valid pliable a b, rfl⟩
  rw [lost] at kept
  exact absurd kept (by simp)

/-- A drawing recovers that of a new scene exactly if its route is what the token means, or was lost. -/
theorem Pictures.recovers_iff {c : Contents} {boxes : List Box} {lost : String → Prop}
    {kept fresh : Option Drawing}
    (hfresh : Pictures c boxes (fun r token a b => r = (Route.raw token).reanchor a b) h fresh) :
    Option.Rel (Drawing.Recovers lost) kept fresh ↔ Pictures c boxes
      (fun r token a b => r = (Route.raw token).reanchor a b ∨ r = .straight ∧ lost token) h kept := by
  have nothing : Option.Rel (Drawing.Recovers lost) kept none ↔ kept = none := by
    constructor
    · rintro ⟨⟩
      rfl
    · rintro rfl
      exact .none
  cases spans : span? c boxes h with
  | none =>
    simp only [Pictures, spans] at hfresh ⊢
    rw [hfresh, nothing]
  | some span =>
    obtain ⟨w, a, b⟩ := span
    simp only [Pictures, spans] at hfresh ⊢
    obtain ⟨_, rfl, rfl⟩ := hfresh
    constructor
    · intro rel
      cases rel with
      | @some drawing _ same =>
        obtain ⟨outlet, inlet, token, route⟩ := drawing
        obtain ⟨⟨rfl, rfl, rfl⟩, tracks⟩ := same
        exact ⟨route, tracks, rfl⟩
    · rintro ⟨route, tracks, rfl⟩
      exact .some ⟨⟨rfl, rfl, rfl⟩, tracks⟩

theorem Attended.reconciled (attended : Attended origin passed s p) :
    let seen := (s.reconcile p.toContents.listing).1
    let fresh := (({} : Scene).reconcile p.toContents.listing).1
    seen.boxes.map (·.2) = fresh.boxes.map (·.2) ∧ seen.stack = fresh.stack ∧
      ∀ h, Unambiguous origin h →
        Option.Rel (Drawing.Recovers (Loses passed h)) (seen.drawing? h) (fresh.drawing? h) := by
  obtain ⟨wf, pristine, cables, numbered, bounded, loyal⟩ := attended
  -- A new scene is one that nothing has happened to; its pass is the same kind of pass.
  obtain ⟨shown, t, report, course⟩ := wf.course (c := p.toContents) bounded.nodup
  obtain ⟨shown', t', report', course'⟩ := wellFormed_empty.course (c := p.toContents) bounded.nodup
  obtain ⟨-, clear⟩ := course.clear pristine
  obtain ⟨-, clear'⟩ := course'.clear pristine_empty
  have boxes := clear.boxes.trans clear'.boxes.symm
  refine ⟨boxes, clear.stack.trans ((congrArg (·.flatMap Box.floors) boxes).trans clear'.stack.symm),
    fun h unambiguous => ?_⟩
  obtain ⟨owner, rewired⟩ := (wellFormed_iff.1 wf).1.rewired (c := p.toContents) numbered
    bounded.nodup
  refine (pictures_empty bounded.nodup h).recovers_iff.2 (rewired.pictures bounded.nodup ?_ ?_)
  · intro x _ hx named none
    obtain ⟨e, he, same, drawn⟩ :=
      course.loyal_drawnBy wf bounded.nodup rfl (loyal h unambiguous) hx named
    obtain ⟨w, a, b, -, -, -, spans, -⟩ :=
      drawn.exists_span he (wf.reconcile bounded.nodup) clear.boxes
    rw [same, none] at spans
    exact absurd spans (by simp)
  · intro old e w outlet inlet a b x _ former named draft
    rw [← named]
    exact (draft.pristine fun y hy => cables y (former y hy)).2

/-- After any turns that end with a pass, a scene shows what a new scene of the same patch shows, but
for routes whose plans did not fit at some pass before. That happens to no plan whose outer pieces join
horizontal ones. -/
theorem sideBySide_agree (p : Patch) (loaded : p.Loaded) (turns : List Turn) :
    let (seen, fresh) := sideBySide p turns
    seen.boxes.map (·.2) = fresh.boxes.map (·.2) ∧ seen.stack = fresh.stack ∧
      (∀ h, Unambiguous p h → Option.Rel (Drawing.Recovers (Loses (visits ({}, p) turns) h))
        (seen.drawing? h) (fresh.drawing? h)) ∧
      ∀ h token ps, Token.decode token = .ok ps → Plan.isPliable ps = true →
        ¬Loses (visits ({}, p) turns) h token :=
  have ⟨boxes, stack, drawings⟩ := ((Attended.start loaded).run turns).delivered.reconciled
  ⟨boxes, stack, drawings, fun _ _ _ read pliable => not_loses_of_isPliable read pliable⟩

/-- A wire between two nodes of one column whose plan runs straight down. The lower node is moved
aside and back, with a pass in between. -/
def aside : List Turn :=
  [.mutate (.insertNode ⟨"osc~", ⟨0, 0, 40, 20⟩, [], [true]⟩),
    .mutate (.insertNode ⟨"dac~", ⟨0, 100, 40, 20⟩, [true], []⟩),
    .mutate (.insertWire ⟨1, 0, 2, 0⟩),
    .mutate (.edit (.setToken 3 "BB4oHlAeeB7K")),
    .pass,
    .mutate (.edit (.moveNode 2 ⟨10, 0⟩)),
    .pass,
    .mutate .undo]

theorem sideBySide_aside : Patch.Loaded {} ∧ Unambiguous {} 3 ∧
    (sideBySide {} aside).1.stack = (sideBySide {} aside).2.stack ∧
    Option.Rel (Drawing.Recovers (Loses (visits ({}, {}) aside) 3))
      ((sideBySide {} aside).1.drawing? 3) ((sideBySide {} aside).2.drawing? 3) := by
  have unambiguous : Unambiguous {} 3 := fun _ hv => absurd hv List.not_mem_nil
  obtain ⟨-, stack, drawings, -⟩ := sideBySide_agree {} .empty aside
  exact ⟨.empty, unambiguous, stack, drawings 3 unambiguous⟩

/-- Two wires of one handle, from two outlets of a node. -/
def clash : String := "\x7b\"objects\": \x7b\"1\": \x7b\"text\": \"a\", \"bounds\": [0, 0, 40, 20],
  \"inlets\": [], \"outlets\": [true, true]\x7d, \"2\": \x7b\"text\": \"b\", \"bounds\": [0, 100, 40, 20],
  \"inlets\": [true], \"outlets\": []\x7d\x7d, \"connections\": [[5, 1, 1, 2, 0], [5, 1, 0, 2, 0]]\x7d"

/-- The first of them is taken out, so the other is drawn, and comes back when its outlet is gone. -/
def displaced : List Turn :=
  [.mutate (.edit (.disconnect ⟨1, 1, 2, 0⟩ none)),
    .pass,
    .mutate (.setJacks 1 [] [true]),
    .mutate .undo]

/-- A route that was lost stays lost, and a cable of a handle with two wires can stay after its wire. -/
theorem sideBySide_differ :
    (¬ ∀ p : Patch, p.Loaded → ∀ turns,
      let (seen, fresh) := sideBySide p turns
      seen.boxes.map (·.2) = fresh.boxes.map (·.2) ∧ seen.stack = fresh.stack ∧
        ∀ h, seen.drawing? h = fresh.drawing? h) ∧
    ¬ ∀ p : Patch, p.Loaded → ∀ turns h, ((sideBySide p turns).1.drawing? h).isSome
      = ((sideBySide p turns).2.drawing? h).isSome := by
  constructor
  · intro always
    have same := (always {} .empty aside).2.2 3
    revert same
    decide +kernel
  · intro always
    have differ : (Patch.parse? clash).all (fun p =>
        ((sideBySide p displaced).1.drawing? 5).isSome
          != ((sideBySide p displaced).2.drawing? 5).isSome) = true ∧
        (Patch.parse? clash).isSome = true := by decide +kernel
    obtain ⟨differ, some⟩ := differ
    obtain ⟨p, read⟩ := Option.isSome_iff_exists.1 some
    rw [read, Option.all_some, bne_iff_ne] at differ
    exact differ (always p (.parsed read) displaced 5)

end Scene

end Patchbay
