import Mathlib.Data.List.MinMax
import Patchbay.Snap.Move

/-!
# What a moved box snaps to

On each axis a snap that was made is held as long as the mouse stays near it. Otherwise the closest
of the cables that hang almost straight is made straight, or else the first box with a feature in
reach is lined up with, or else the box goes with the mouse. So wherever a box snaps, what it snaps to
lines up exactly, and where it does not, nothing was in reach.
-/

namespace Patchbay

namespace Axis

theorem feature_shift (axis : Axis) (target : SnapTarget) (z : Int) (r : Rect) :
    axis.feature target (axis.shift z r) = axis.feature target r + z := by
  cases axis <;> cases target <;>
    simp only [feature, start, centre, stop, shift, Rect.shifted, Rect.centreX, Rect.centreY,
      Rect.right, Rect.bottom] <;> omega

theorem feature_desired (axis : Axis) (target : SnapTarget) (r : MoveRequest) :
    axis.feature target r.desired
      = axis.feature target (r.home.reduced margin) + axis.component r.offset := by
  cases axis <;> cases target <;>
    simp only [feature, start, centre, stop, component, MoveRequest.desired, Rect.reduced,
      Rect.shifted, Rect.centreX, Rect.centreY, Rect.right, Rect.bottom] <;> omega

end Axis

theorem SnapSettings.reaches_iff {settings : SnapSettings} {d : Int} :
    settings.reaches d = true ↔ (d.natAbs : Int) ≤ settings.tolerance := decide_eq_true_iff

namespace CableEnds

def moving (c : CableEnds) : Rect := if c.inletMoves then c.inlet else c.outlet

def resting (c : CableEnds) : Rect := if c.inletMoves then c.outlet else c.inlet

/-- The cable does not run upward once its box is moved. -/
def Hangs (c : CableEnds) (offset : Point) : Prop := (c.moved offset).1.y ≤ (c.moved offset).2.y

instance (c : CableEnds) (offset : Point) : Decidable (c.Hangs offset) := Int.decLe _ _

/-- How far the left edge of the jack that moves is from that of the other one. -/
def gap (c : CableEnds) (offset : Point) : Int := c.resting.x - (c.moving.x + offset.x)

theorem distance?_eq (c : CableEnds) (offset : Point) :
    c.distance? offset = if c.Hangs offset then some (c.gap offset) else none := by
  cases c with
  | mk outlet inlet inletMoves =>
    cases inletMoves with
    | true =>
      simp only [distance?, moved, Hangs, gap, moving, resting, Rect.shifted, if_true]
      split_ifs <;> first | rfl | omega
    | false =>
      simp only [distance?, moved, Hangs, gap, moving, resting, Rect.shifted, Bool.false_eq_true,
        if_false]
      split_ifs <;> first | rfl | omega

def IsClose (settings : SnapSettings) (offset : Point) (c : CableEnds) : Prop :=
  c.Hangs offset ∧ ((c.gap offset).natAbs : Int) ≤ settings.tolerance

def IsNear (settings : SnapSettings) (offset : Point) (c : CableEnds) : Prop :=
  c.Hangs offset ∧ settings.tolerance < (c.gap offset).natAbs ∧
    ((c.gap offset).natAbs : Int) < 2 * settings.tolerance

instance (settings : SnapSettings) (offset : Point) :
    DecidablePred (IsClose settings offset) := fun _ => instDecidableAnd

instance (settings : SnapSettings) (offset : Point) :
    DecidablePred (IsNear settings offset) := fun _ => instDecidableAnd

/-- Of the cables in reach the closest, and the first of those that are equally close. -/
def closest? (settings : SnapSettings) (offset : Point) (cs : List CableEnds) : Option CableEnds :=
  (cs.filter (IsClose settings offset)).argmin fun c => (c.gap offset).natAbs

end CableEnds

namespace Snapper

open CableEnds (IsClose IsNear closest?)

variable {settings : SnapSettings} {axis : Axis} {r : MoveRequest} {offset : Point}

theorem closest?_concat (settings : SnapSettings) (offset : Point) (cs : List CableEnds)
    (c : CableEnds) : closest? settings offset (cs ++ [c]) =
      if IsClose settings offset c then
        match closest? settings offset cs with
        | some b => if (c.gap offset).natAbs < (b.gap offset).natAbs then some c else some b
        | none => some c
      else closest? settings offset cs := by
  unfold closest?
  rw [List.filter_append, List.filter_singleton]
  by_cases close : IsClose settings offset c
  · simp only [close, decide_true, if_true, cond_true, List.argmin_concat]
    cases (cs.filter (IsClose settings offset)).argmin fun c => (c.gap offset).natAbs <;> rfl
  · simp only [close, decide_false, if_false, cond_false, List.append_nil]

theorem step_eq (settings : SnapSettings) (offset : Point) (found : CableSearch) (c : CableEnds) :
    CableSearch.step settings offset found c =
      ⟨if IsClose settings offset c then
          match found.best with
          | some (best, line) =>
            if (c.gap offset).natAbs < best.natAbs then some (c.gap offset, c.line offset)
            else some (best, line)
          | none => some (c.gap offset, c.line offset)
        else found.best,
        found.near || decide (IsNear settings offset c)⟩ := by
  unfold CableSearch.step
  rw [CableEnds.distance?_eq]
  by_cases hangs : c.Hangs offset
  · by_cases reach : ((c.gap offset).natAbs : Int) ≤ settings.tolerance
    · have close : IsClose settings offset c := ⟨hangs, reach⟩
      have apart : ¬IsNear settings offset c := fun near => absurd near.2.1 (by omega)
      simp only [hangs, SnapSettings.reaches_iff, reach, close, apart, if_true, decide_false,
        Bool.or_false]
      cases found with
      | mk best near =>
        cases best with
        | none => rfl
        | some best => dsimp only; split_ifs <;> rfl
    · have far : ¬IsClose settings offset c := fun close => reach close.2
      have near : IsNear settings offset c ↔
          ((c.gap offset).natAbs : Int) < 2 * settings.tolerance :=
        ⟨fun near => near.2.2, fun near => ⟨hangs, by omega, near⟩⟩
      simp only [hangs, SnapSettings.reaches_iff, reach, far, if_true, if_false, near]
      split_ifs with below
      · simp only [below, decide_true, Bool.or_true]
      · simp only [below, decide_false, Bool.or_false]
  · have far : ¬IsClose settings offset c := fun close => hangs close.1
    have apart : ¬IsNear settings offset c := fun near => hangs near.1
    simp only [hangs, far, apart, if_false, decide_false, Bool.or_false]

theorem foldl_step (settings : SnapSettings) (offset : Point) (cs : List CableEnds) :
    cs.foldl (CableSearch.step settings offset) {} =
      ⟨(closest? settings offset cs).map fun c => (c.gap offset, c.line offset),
        cs.any fun c => IsNear settings offset c⟩ := by
  induction cs using List.reverseRecOn with
  | nil => rfl
  | append_singleton cs c ih =>
    rw [List.foldl_append, ih, List.foldl_cons, List.foldl_nil, step_eq, closest?_concat,
      List.any_append]
    congr 1
    · by_cases close : IsClose settings offset c
      · simp only [close, if_true]
        cases closest? settings offset cs with
        | none => rfl
        | some b => simp only [Option.map_some]; split_ifs <;> rfl
      · simp only [close, if_false]
    · simp

/-! ## One axis -/

/-- The snap that is held on to, as the mouse has not gone far from it. -/
def kept? (settings : SnapSettings) (axis : Axis) (r : MoveRequest) (held : Option HeldSnap) :
    Option HeldSnap :=
  held.filter fun snap =>
    ((snap.offset - axis.component r.offset).natAbs : Int) ≤ settings.releaseRange

theorem kept?_eq_some_iff {held : Option HeldSnap} {snap : HeldSnap} :
    kept? settings axis r held = some snap ↔ held = some snap ∧
      ((snap.offset - axis.component r.offset).natAbs : Int) ≤ settings.releaseRange := by
  simp only [kept?, Option.filter_eq_some_iff, decide_eq_true_eq]

end Snapper

def SnapOutcome.held? : SnapOutcome → Option HeldSnap
  | hold snap _ => some snap
  | free _ => none

namespace Snapper

open CableEnds (IsClose IsNear closest?)

variable {settings : SnapSettings} {axis : Axis} {r : MoveRequest} {a : SnapAxis} {snap : HeldSnap}

theorem moveAxis_of_kept (now : Nat) (kept : kept? settings axis r a.held = some snap) :
    (moveAxis settings axis r now a).1.held = some snap ∧
      (moveAxis settings axis r now a).2 = snap.offset := by
  obtain ⟨held, near⟩ := kept?_eq_some_iff.1 kept
  simp only [moveAxis, held, near, if_true, and_self]

theorem moveAxis_of_fresh (now : Nat) (gone : kept? settings axis r a.held = none) :
    (moveAxis settings axis r now a).1.held = (freshOutcome settings axis r).held? ∧
      (moveAxis settings axis r now a).2 = (freshOutcome settings axis r).offset := by
  have fresh (a : SnapAxis) :
      (freshAxis settings axis r now a).1.held = (freshOutcome settings axis r).held? ∧
        (freshAxis settings axis r now a).2 = (freshOutcome settings axis r).offset := by
    unfold freshAxis
    split
    · next found => rw [found]; exact ⟨rfl, rfl⟩
    · next found => rw [found]; exact ⟨rfl, rfl⟩
  unfold moveAxis
  split
  · next snap held =>
    have far : ¬((snap.offset - axis.component r.offset).natAbs : Int) ≤ settings.releaseRange := by
      intro near
      rw [kept?_eq_some_iff.2 ⟨held, near⟩] at gone
      exact absurd gone (by simp)
    rw [if_neg far]
    exact fresh _
  · exact fresh _

/-- No cable has a say: the axis knows none, or they are all far from straight. -/
def IsUncabled (settings : SnapSettings) (axis : Axis) (r : MoveRequest) : Prop :=
  axis = .horizontal → settings.snapConnections = true →
    ∀ c ∈ r.cables, ¬IsClose settings r.offset c ∧ ¬IsNear settings r.offset c

/-- What an axis finds where only cables and boxes snap: the snap that it makes, and the offset. -/
inductive Finds (settings : SnapSettings) (axis : Axis) (r : MoveRequest) :
    Option HeldSnap → Int → Prop
  /-- The closest of the cables in reach, and it becomes straight. -/
  | cable {c : CableEnds} {z : Int} (across : axis = .horizontal)
      (on : settings.snapConnections = true) (best : closest? settings r.offset r.cables = some c)
      (way : z - axis.component r.offset = c.gap r.offset) :
      Finds settings axis r (some ⟨z, .connection⟩) z
  /-- A feature of a box, in reach, and the moved box lines up with it exactly. -/
  | box {other : Rect} {target : SnapTarget} {z : Int} (apart : IsUncabled settings axis r)
      (there : other ∈ r.others) (counts : target ∈ SnapTarget.features)
      (on : target.isEnabled settings = true)
      (reach : ((z - axis.component r.offset).natAbs : Int) ≤ settings.tolerance)
      (level : axis.feature target (axis.shift z (r.home.reduced margin))
        = axis.feature target (other.reduced margin)) : Finds settings axis r (some ⟨z, target⟩) z
  /-- A cable that is nearly in reach, for which the axis is left alone. -/
  | nearlyStraight {c : CableEnds} (across : axis = .horizontal)
      (on : settings.snapConnections = true) (there : c ∈ r.cables) (near : IsNear settings r.offset c)
      (far : ∀ c ∈ r.cables, ¬IsClose settings r.offset c) :
      Finds settings axis r none (axis.component r.offset)
  /-- Nothing: all features that count are out of reach. -/
  | nothing (apart : IsUncabled settings axis r)
      (far : ∀ other ∈ r.others, ∀ target ∈ SnapTarget.features, target.isEnabled settings = true →
        settings.tolerance < ((axis.feature target (other.reduced margin)
          - axis.feature target r.desired).natAbs : Int)) :
      Finds settings axis r none (axis.component r.offset)

theorem closest?_eq_none_iff {offset : Point} {cs : List CableEnds} :
    closest? settings offset cs = none ↔ ∀ c ∈ cs, ¬IsClose settings offset c := by
  simp only [closest?, List.argmin_eq_none, List.filter_eq_nil_iff, decide_eq_true_eq]

theorem cableOutcome?_across (on : settings.snapConnections = true) (r : MoveRequest) :
    cableOutcome? settings .horizontal r =
      match closest? settings r.offset r.cables with
      | some c => some (.hold ⟨r.offset.x + c.gap r.offset, .connection⟩ (c.line r.offset))
      | none =>
        if r.cables.any fun c => IsNear settings r.offset c then some (.free r.offset.x) else none := by
  simp only [cableOutcome?, searchCables, foldl_step, on, decide_true, Bool.and_self, if_true]
  cases closest? settings r.offset r.cables with
  | some c => rfl
  | none =>
    simp only [Option.map_none]
    cases r.cables.any fun c => IsNear settings r.offset c <;> rfl

theorem cableOutcome?_eq_none (off : ¬(axis = .horizontal ∧ settings.snapConnections = true))
    (r : MoveRequest) : cableOutcome? settings axis r = none := by
  unfold cableOutcome?
  rw [if_neg]
  simpa using off

theorem finds_cable (settings : SnapSettings) (axis : Axis) (r : MoveRequest) :
    match cableOutcome? settings axis r with
    | some outcome => Finds settings axis r outcome.held? outcome.offset
    | none => IsUncabled settings axis r := by
  by_cases asked : axis = .horizontal ∧ settings.snapConnections = true
  · obtain ⟨rfl, on⟩ := asked
    rw [cableOutcome?_across on]
    cases best : closest? settings r.offset r.cables with
    | some c => exact .cable rfl on best (by simp only [Axis.component]; omega)
    | none =>
      have far := closest?_eq_none_iff.1 best
      by_cases near : r.cables.any (fun c => IsNear settings r.offset c) = true
      · obtain ⟨c, there, near'⟩ := List.any_eq_true.1 near
        rw [if_pos near]
        exact .nearlyStraight rfl on there (of_decide_eq_true near') far
      · rw [if_neg near]
        intro _ _ c there
        refine ⟨far c there, fun near' => near ?_⟩
        exact List.any_eq_true.2 ⟨c, there, decide_eq_true near'⟩
  · rw [cableOutcome?_eq_none asked]
    exact fun across on => absurd ⟨across, on⟩ asked

theorem featureSnap?_eq_some_iff {desired other : Rect} {target : SnapTarget}
    {found : Int × SnapTarget × Segment} :
    featureSnap? settings axis desired other target = some found ↔
      (target.isEnabled settings = true ∧
        ((axis.feature target other - axis.feature target desired).natAbs : Int)
          ≤ settings.tolerance) ∧
      (axis.feature target other - axis.feature target desired, target,
        axis.line (axis.feature target other) (other.union (axis.shift
          (axis.feature target other - axis.feature target desired) desired))) = found := by
  simp only [featureSnap?, Bool.and_eq_true, SnapSettings.reaches_iff, Option.ite_none_right_eq_some,
    Option.some.injEq]

theorem finds_box (apart : IsUncabled settings axis r) :
    match boxOutcome? settings axis r with
    | some outcome => Finds settings axis r outcome.held? outcome.offset
    | none => Finds settings axis r none (axis.component r.offset) := by
  unfold boxOutcome?
  cases found : boxSnap? settings axis r with
  | some snap =>
    obtain ⟨other, there, found⟩ := List.exists_of_findSome?_eq_some found
    obtain ⟨target, counts, found⟩ := List.exists_of_findSome?_eq_some found
    obtain ⟨⟨on, reach⟩, rfl⟩ := featureSnap?_eq_some_iff.1 found
    refine .box apart there counts on ?_ ?_
    · have way (w d : Int) : w + d - w = d := by omega
      rwa [way]
    · rw [Axis.feature_shift, Axis.feature_desired]
      omega
  | none =>
    refine .nothing apart fun other there target counts on => ?_
    have missed := List.findSome?_eq_none_iff.1 (List.findSome?_eq_none_iff.1 found other there)
      target counts
    by_contra reach
    have made := featureSnap?_eq_some_iff.2 ⟨⟨on, Int.not_lt.1 reach⟩, rfl⟩
    rw [missed] at made
    exact absurd made (by simp)

theorem finds_fresh (objects : settings.mode = .objects) (axis : Axis) (r : MoveRequest) :
    Finds settings axis r (freshOutcome settings axis r).held? (freshOutcome settings axis r).offset := by
  have cable := finds_cable settings axis r
  have snaps : settings.mode.snapsToObjects = true := by rw [objects]; rfl
  have raw : gridOutcome settings axis r = .free (axis.component r.offset) := by
    simp only [gridOutcome, objects, SnapMode.snapsToGrid, Bool.false_eq_true, if_false]
  simp only [freshOutcome, snaps, if_true, raw]
  cases said : cableOutcome? settings axis r with
  | some outcome =>
    rw [said] at cable
    exact cable
  | none =>
    rw [said] at cable
    have box := finds_box cable
    cases found : boxOutcome? settings axis r with
    | some outcome =>
      rw [found] at box
      exact box
    | none =>
      rw [found] at box
      exact box

theorem move_axis {s : Snapper} (on : (r.bypass || s.settings.mode == .off) = false) (now : Nat)
    (axis : Axis) :
    ((s.move r now).1.axis axis).held = (moveAxis s.settings axis r now (s.axis axis)).1.held ∧
      axis.component (s.move r now).2 = (moveAxis s.settings axis r now (s.axis axis)).2 := by
  simp only [move, on, Bool.false_eq_true, if_false]
  cases axis <;> exact ⟨rfl, rfl⟩

theorem held_clear (s : Snapper) (axis : Axis) : (s.clear.axis axis).held = none := by
  cases axis <;> rfl

/-- How an axis answers a move where only cables and boxes snap: by what it held before, if that is
still near, and else by what it finds. -/
inductive Answers (settings : SnapSettings) (axis : Axis) (r : MoveRequest)
    (before : Option HeldSnap) : Option HeldSnap → Int → Prop
  | keeps {snap : HeldSnap} (held : before = some snap)
      (near : ((snap.offset - axis.component r.offset).natAbs : Int) ≤ settings.releaseRange) :
      Answers settings axis r before (some snap) snap.offset
  | finds {after : Option HeldSnap} {z : Int}
      (gone : ∀ snap, before = some snap →
        settings.releaseRange < ((snap.offset - axis.component r.offset).natAbs : Int))
      (found : Finds settings axis r after z) : Answers settings axis r before after z

theorem answers_move {s : Snapper} (objects : s.settings.mode = .objects) (on : r.bypass = false)
    (now : Nat) (axis : Axis) : Answers s.settings axis r (s.axis axis).held
      ((s.move r now).1.axis axis).held (axis.component (s.move r now).2) := by
  have snaps : (r.bypass || s.settings.mode == .off) = false := by rw [on, objects]; rfl
  obtain ⟨held, offset⟩ := move_axis snaps now axis
  rw [held, offset]
  cases kept : kept? s.settings axis r (s.axis axis).held with
  | some snap =>
    obtain ⟨held, offset⟩ := moveAxis_of_kept now kept
    obtain ⟨before, near⟩ := kept?_eq_some_iff.1 kept
    rw [held, offset]
    exact .keeps before near
  | none =>
    obtain ⟨held, offset⟩ := moveAxis_of_fresh now kept
    rw [held, offset]
    refine .finds (fun snap before => ?_) (finds_fresh objects axis r)
    by_contra near
    rw [kept?_eq_some_iff.2 ⟨before, Int.not_lt.1 near⟩] at kept
    exact absurd kept (by simp)

/-! ## Calls -/

inductive Call where
  | move (r : MoveRequest) (now : Nat)
  | advance (now : Nat)
  | clear
  /-- The mouse goes up, and what is held is let go. -/
  | letGo
  | setSettings (settings : SnapSettings)

def Call.run (s : Snapper) : Call → Snapper
  | move r now => (s.move r now).1
  | advance now => s.advance now
  | clear | letGo => s.clear
  | setSettings settings => s.setSettings settings

def used (settings : SnapSettings) (calls : List Call) : Snapper :=
  calls.foldl Call.run { settings := settings }

theorem used_append (settings : SnapSettings) (calls more : List Call) :
    used settings (calls ++ more) = more.foldl Call.run (used settings calls) :=
  List.foldl_append

/-- A snap that is held after a call was held before it, or the call is a move that was answered with
it. -/
theorem held_run {s : Snapper} {call : Call} (held : ((call.run s).axis axis).held = some snap) :
    (s.axis axis).held = some snap ∨ ∃ r now, call = .move r now ∧
      kept? s.settings axis r (s.axis axis).held = none ∧
        axis.component (s.move r now).2 = snap.offset := by
  cases call with
  | move r now =>
    cases snaps : (r.bypass || s.settings.mode == .off) with
    | true =>
      simp only [Call.run, Snapper.move, snaps, if_true, held_clear] at held
      exact absurd held (by simp)
    | false =>
      obtain ⟨held', offset⟩ := move_axis snaps now axis
      rw [Call.run, held'] at held
      cases kept : kept? s.settings axis r (s.axis axis).held with
      | some snap' =>
        rw [(moveAxis_of_kept now kept).1] at held
        left
        rw [← held]
        exact (kept?_eq_some_iff.1 kept).1
      | none =>
        obtain ⟨held', offset'⟩ := moveAxis_of_fresh now kept
        rw [held'] at held
        refine Or.inr ⟨r, now, rfl, kept, ?_⟩
        rw [offset, offset']
        cases made : freshOutcome s.settings axis r with
        | hold snap' line =>
          rw [made] at held
          exact congrArg HeldSnap.offset (Option.some.inj held)
        | free z =>
          rw [made] at held
          exact absurd held (by simp [SnapOutcome.held?])
  | advance now =>
    left
    rw [← held]
    cases axis <;> rfl
  | clear | letGo => exact absurd (held.symm.trans (held_clear s axis)) (by simp)
  | setSettings settings =>
    cases axis <;> exact absurd held (by simp [Call.run, setSettings, Snapper.axis])

/-- One of the calls is a move that made the snap and was answered with it, and no call since has let
go of it. -/
def Made (settings : SnapSettings) (calls : List Call) (axis : Axis) (snap : HeldSnap) : Prop :=
  ∃ before r now after, calls = before ++ .move r now :: after ∧
    kept? (used settings before).settings axis r ((used settings before).axis axis).held = none ∧
    axis.component ((used settings before).move r now).2 = snap.offset ∧
    ∀ n, ((used settings (before ++ .move r now :: after.take n)).axis axis).held = some snap

theorem made_of_held (settings : SnapSettings) (calls : List Call)
    (held : ((used settings calls).axis axis).held = some snap) : Made settings calls axis snap := by
  induction calls using List.reverseRecOn with
  | nil => cases axis <;> exact absurd held (by simp [used, Snapper.axis])
  | append_singleton calls call ih =>
    have held' := held
    rw [used_append, List.foldl_cons, List.foldl_nil] at held'
    rcases held_run held' with former | ⟨r, now, rfl, gone, answer⟩
    · obtain ⟨before, r, now, after, rfl, gone, answer, since⟩ := ih former
      refine ⟨before, r, now, after ++ [call], by simp, gone, answer, fun n => ?_⟩
      by_cases short : n ≤ after.length
      · rw [List.take_append_of_le_length short]
        exact since n
      · rw [List.take_of_length_le (by simp; omega)]
        simpa using held
    · exact ⟨calls, r, now, [], rfl, gone, answer, fun n => by rw [List.take_nil]; exact held⟩

/-- Whatever has been asked of a snapper: where only cables and boxes snap, each axis answers a move
with the snap that it holds, which an earlier move made and was answered with, or with what it finds. -/
theorem objects_answer (settings : SnapSettings) (calls : List Call) (r : MoveRequest) (now : Nat)
    (axis : Axis) (objects : (used settings calls).settings.mode = .objects)
    (on : r.bypass = false) :
    let s := used settings calls;
    Answers s.settings axis r (s.axis axis).held ((s.move r now).1.axis axis).held
        (axis.component (s.move r now).2) ∧
      ∀ snap, (s.axis axis).held = some snap → Made settings calls axis snap :=
  ⟨answers_move objects on now axis, fun _ held => made_of_held settings calls held⟩

def passing (x : Int) : MoveRequest where
  home := ⟨0, 0, 50, 30⟩
  offset := ⟨x, 0⟩
  others := [⟨100, 200, 50, 30⟩]
  cables := []

theorem objects_answer_passing :
    (used { mode := .objects } [.move (passing 97) 0]).settings.mode = .objects ∧
      (passing 106).bypass = false ∧
      Answers { mode := .objects } .horizontal (passing 106) (some ⟨100, .start⟩)
        (some ⟨100, .start⟩) 100 ∧
      Made { mode := .objects } [.move (passing 97) 0] .horizontal ⟨100, .start⟩ := by
  obtain ⟨answers, made⟩ :=
    objects_answer { mode := .objects } [.move (passing 97) 0] (passing 106) 0 .horizontal rfl rfl
  exact ⟨rfl, rfl, answers, made _ rfl⟩

end Snapper

end Patchbay
