import Patchbay.Proofs.Anchor
import Patchbay.Proofs.Budget

/-!
# Plans that alternate

The plans that the program makes have vertical and horizontal pieces in turn, from a vertical one to a
vertical one, and some may be empty. Such a plan gives way to whatever its anchors do and to a drag of
its pieces, and is one again afterwards, so that a cable does not lose it.
-/

namespace Patchbay

theorem getElem?_segments {ps : List Point} {i : Nat} {s : Segment} :
    (segments ps)[i]? = some s ↔ ps[i]? = some s.start ∧ ps[i + 1]? = some s.stop := by
  induction ps generalizing i with
  | nil => simp [segments]
  | cons p ps ih =>
    cases ps with
    | nil => simp [segments]
    | cons q ps =>
      cases i with
      | zero =>
        simp only [segments, List.getElem?_cons_zero, List.getElem?_cons_succ, Option.some.injEq]
        constructor
        · rintro rfl
          exact ⟨rfl, rfl⟩
        · rintro ⟨rfl, rfl⟩
          rfl
      | succ i => rw [segments, List.getElem?_cons_succ, ih]; rfl

namespace Plan

variable {ps qs : Plan} {i n : Nat} {a b p q delta start stop : Point}

/-- What the `i`-th piece of an alternating plan has in common at its two ends. -/
def Joint (i : Nat) (p q : Point) : Prop := if i % 2 = 0 then p.x = q.x else p.y = q.y

theorem joint_even (even : i % 2 = 0) : Joint i p q ↔ p.x = q.x := by
  rw [Joint, if_pos even]

theorem joint_odd (odd : i % 2 = 1) : Joint i p q ↔ p.y = q.y := by
  rw [Joint, if_neg (by omega)]

/-- Pieces are vertical and horizontal in turn, and the first and the last are vertical. -/
structure Alternating (ps : Plan) : Prop where
  long : 4 ≤ ps.length
  even : ps.length % 2 = 0
  pieces : ∀ i s, (segments ps)[i]? = some s → Joint i s.start s.stop

namespace Alternating

theorem joint (alternating : ps.Alternating) (hp : ps[i]? = some p) (hq : ps[i + 1]? = some q) :
    Joint i p q :=
  alternating.pieces i ⟨p, q⟩ (getElem?_segments.2 ⟨hp, hq⟩)

theorem of_moved (alternating : ps.Alternating) (length : qs.length = ps.length)
    (move : Nat → Point → Point) (moved : ∀ j, qs[j]? = ps[j]?.map (move j))
    (keeps : ∀ j p q, j + 1 < ps.length → Joint j p q → Joint j (move j p) (move (j + 1) q)) :
    qs.Alternating where
  long := length ▸ alternating.long
  even := length ▸ alternating.even
  pieces j s there := by
    obtain ⟨first, second⟩ := getElem?_segments.1 there
    obtain ⟨p, hp, start⟩ := Option.map_eq_some_iff.1 (moved j ▸ first)
    obtain ⟨q, hq, stop⟩ := Option.map_eq_some_iff.1 (moved (j + 1) ▸ second)
    obtain ⟨within, -⟩ := List.getElem?_eq_some_iff.1 hq
    rw [← start, ← stop]
    exact keeps j p q within (alternating.joint hp hq)

theorem isValid (alternating : ps.Alternating) : ps.isValid = true := by
  have long := alternating.long
  have even := alternating.even
  have aligned : ∀ s ∈ segments ps, s.isAxisAligned = true := by
    intro s hs
    obtain ⟨i, there⟩ := List.mem_iff_getElem?.1 hs
    have joint := alternating.pieces i s there
    rcases Nat.mod_two_eq_zero_or_one i with parity | parity
    · simp [Segment.isAxisAligned, Segment.isVertical, (joint_even parity).1 joint]
    · simp [Segment.isAxisAligned, Segment.isHorizontal, (joint_odd parity).1 joint]
  have upright {i : Nat} (parity : i % 2 = 0) :
      ((segments ps)[i]?).all Segment.isVertical = true := by
    cases there : (segments ps)[i]? with
    | none => rfl
    | some s => simpa [Segment.isVertical] using (joint_even parity).1 (alternating.pieces i s there)
  have last : (ps.length - 1 - 1) % 2 = 0 := by omega
  simp only [Plan.isValid, long, List.all_eq_true.2 aligned, List.head?_eq_getElem?,
    List.getLast?_eq_getElem?, length_segments, upright (Nat.zero_mod 2), upright last, decide_true,
    Bool.and_self]

end Alternating

theorem pieces_of_zipIdx (joints : ∀ x ∈ (segments ps).zipIdx, Joint x.2 x.1.start x.1.stop) :
    ∀ i s, (segments ps)[i]? = some s → Joint i s.start s.stop :=
  fun i s there => joints (s, i) (List.mem_zipIdx_iff_getElem?.2 there)

theorem alternating_initial (start stop : Point) : (initial start stop).Alternating := by
  unfold initial
  split
  · next column =>
    refine ⟨by simp, by simp, pieces_of_zipIdx ?_⟩
    simp [segments, Joint, column]
  · refine ⟨by simp, by simp, pieces_of_zipIdx ?_⟩
    simp [segments, Joint]

open Patchbay.Lattice (Alternates Admissible Heading)

theorem joint_of_alternates {heading : Heading} {ss : List Segment} {s : Segment}
    (alternates : Alternates heading ss) (there : ss[i]? = some s) :
    Joint (if heading = .vertical then i else i + 1) s.start s.stop := by
  induction ss generalizing heading i with
  | nil => exact absurd there (by simp)
  | cons t ss ih =>
    obtain ⟨first, rest⟩ := Lattice.Field.alternates_cons.1 alternates
    cases i with
    | zero =>
      obtain rfl := Option.some.inj there
      cases heading with
      | vertical => exact first.1
      | horizontal => exact first.1
    | succ i =>
      have joint := ih rest (by simpa using there)
      cases heading with
      | vertical => exact joint
      | horizontal =>
        rw [if_pos (by rfl)] at joint
        rw [if_neg (by decide), Joint, Nat.add_assoc, Nat.add_mod_right]
        exact joint

/-- A found route bends in pairs, so that one with any bends has an even number of points, at least
four. -/
theorem alternating_of_admissible {obstacles : List Rect} {settings : RoutingSettings}
    (route : Admissible start stop obstacles settings ps) (bent : 2 < ps.length) : ps.Alternating := by
  have pairs := route.bends_mod
  simp only [bends] at pairs
  refine ⟨by omega, by omega, fun i s there => ?_⟩
  exact joint_of_alternates route.alternates there

def pin (a b : Point) (n i : Nat) (p : Point) : Point :=
  if i = 0 then a
  else if i + 1 = n then b
  else if i = 1 then p.withX a.x
  else if i + 2 = n then p.withX b.x
  else p

theorem pin_x_first (first : i ≤ 1) (long : 4 ≤ n) : (pin a b n i p).x = a.x := by
  grind [pin, Point.withX]

theorem pin_x_last (last : n ≤ i + 2) (within : i < n) (long : 4 ≤ n) : (pin a b n i p).x = b.x := by
  grind [pin, Point.withX]

theorem pin_x_inner (first : 2 ≤ i) (last : i + 2 < n) : (pin a b n i p).x = p.x := by
  grind [pin]

theorem pin_y (first : 0 < i) (last : i + 1 < n) : (pin a b n i p).y = p.y := by
  grind [pin, Point.withX]

theorem getElem?_anchor (long : 4 ≤ ps.length) (a b : Point) (i : Nat) :
    (ps.anchor a b)[i]? = ps[i]?.map (pin a b ps.length i) := by
  obtain ⟨p, q, mid, r, s, rfl⟩ := exists_ends long
  have length : (p :: q :: (mid ++ [r, s])).length = mid.length + 4 := by simp
  rw [anchor_ends, length]
  match i with
  | 0 => rfl
  | 1 => simp [pin]
  | i + 2 =>
    simp only [List.getElem?_cons_succ]
    rcases Nat.lt_trichotomy i mid.length with inner | rfl | past
    · have still : pin a b (mid.length + 4) (i + 2) = id := by
        funext t
        rw [pin, if_neg (by omega), if_neg (by omega), if_neg (by omega), if_neg (by omega), id]
      rw [List.getElem?_append_left inner, List.getElem?_append_left inner, still, Option.map_id, id]
    · simp [pin]
    · obtain ⟨k, rfl⟩ : ∃ k, i = mid.length + (k + 1) := ⟨i - mid.length - 1, by omega⟩
      rw [List.getElem?_append_right (by omega), List.getElem?_append_right (by omega),
        Nat.add_sub_cancel_left]
      cases k with
      | zero => simp [pin]
      | succ k => simp

theorem Alternating.anchor (alternating : ps.Alternating) (a b : Point) :
    (ps.anchor a b).Alternating := by
  have even := alternating.even
  have long := alternating.long
  refine alternating.of_moved (length_anchor a b ps) _ (getElem?_anchor long a b) ?_
  intro j p q within joint
  rcases Nat.mod_two_eq_zero_or_one j with parity | parity
  · rw [joint_even parity] at joint ⊢
    obtain rfl | last | ⟨low, high⟩ : j = 0 ∨ j + 2 = ps.length ∨ 2 ≤ j ∧ j + 3 < ps.length := by omega
    · rw [pin_x_first (Nat.zero_le 1) long, pin_x_first (Nat.le_refl 1) long]
    · rw [pin_x_last (by omega) (by omega) long, pin_x_last (by omega) within long]
    · rw [pin_x_inner low (by omega), pin_x_inner (by omega) (by omega)]
      exact joint
  · rw [joint_odd parity] at joint ⊢
    rw [pin_y (by omega) within, pin_y (Nat.succ_pos j) (by omega)]
    exact joint

theorem Alternating.reanchor (alternating : ps.Alternating) (a b : Point) :
    ∃ qs, (Route.segmented ps).reanchor a b = .segmented qs ∧ qs.Alternating :=
  ⟨ps.anchor a b, Route.reanchor_eq_segmented_iff.2
    ⟨alternating.isValid, (alternating.anchor a b).isValid, rfl⟩, alternating.anchor a b⟩

/-- A piece that a drag of an alternating plan leaves alternating: horizontal, or vertical and not
empty. -/
def Grips (ps : Plan) (i : Nat) : Prop :=
  ps.isDraggable i = true ∧ (i % 2 = 1 ∨ ps[i]? ≠ ps[i + 1]?)

instance (ps : Plan) (i : Nat) : Decidable (ps.Grips i) :=
  inferInstanceAs (Decidable (_ ∧ (_ ∨ _)))

theorem isDraggable_iff : ps.isDraggable i = true ↔ 1 ≤ i ∧ i + 2 < ps.length := by
  simp [isDraggable]

theorem Alternating.drag_eq (alternating : ps.Alternating) (grips : ps.Grips i) (delta : Point) :
    ps.drag i delta =
      let move := shift delta (if i % 2 = 1 then .horizontal else .vertical)
      some ((ps.modify i move).modify (i + 1) move) := by
  obtain ⟨draggable, gripped⟩ := grips
  obtain ⟨low, high⟩ := isDraggable_iff.1 draggable
  obtain ⟨i, rfl⟩ := Nat.exists_eq_add_of_le' low
  obtain ⟨before, hbefore⟩ : ∃ before, ps[i]? = some before := ⟨_, List.getElem?_eq_getElem (by omega)⟩
  obtain ⟨a, ha⟩ : ∃ a, ps[i + 1]? = some a := ⟨_, List.getElem?_eq_getElem (by omega)⟩
  obtain ⟨b, hb⟩ : ∃ b, ps[i + 1 + 1]? = some b := ⟨_, List.getElem?_eq_getElem (by omega)⟩
  have first := alternating.joint hbefore ha
  have second := alternating.joint ha hb
  simp only [drag, draggable, if_true, Nat.add_sub_cancel, hbefore, ha, hb]
  rw [ha, hb, ne_eq, Option.some.injEq] at gripped
  rcases Nat.mod_two_eq_zero_or_one i with parity | parity
  · have odd : (i + 1) % 2 = 1 := by omega
    rw [joint_even parity] at first
    rw [joint_odd odd] at second
    have level : direction before a b = some .horizontal := by
      simp only [direction, first, second, if_true, ite_self]
    rw [level, if_pos odd]
    rfl
  · have even : (i + 1) % 2 = 0 := by omega
    rw [joint_even even] at second
    have apart : a ≠ b := gripped.resolve_left (by omega)
    have upright : direction before a b = some .vertical := by
      unfold direction
      rw [if_neg apart, if_neg fun level => apart (Point.ext second level), if_pos second]
    rw [upright, if_neg (by omega)]
    rfl

theorem getElem?_modify_pair (ps : Plan) (i : Nat) (move : Point → Point) (j : Nat) :
    ((ps.modify i move).modify (i + 1) move)[j]?
      = ps[j]?.map (if j = i ∨ j = i + 1 then move else id) := by
  rw [List.getElem?_modify, List.getElem?_modify]
  cases ps[j]? with
  | none => rfl
  | some p => grind

theorem ends_of_moved {move : Point → Point} (draggable : ps.isDraggable i = true)
    (length : qs.length = ps.length)
    (moved : ∀ j, qs[j]? = ps[j]?.map (if j = i ∨ j = i + 1 then move else id)) :
    qs.head? = ps.head? ∧ qs.getLast? = ps.getLast? := by
  obtain ⟨low, high⟩ := isDraggable_iff.1 draggable
  constructor
  · rw [List.head?_eq_getElem?, moved, if_neg (by omega), Option.map_id, id, List.head?_eq_getElem?]
  · rw [List.getLast?_eq_getElem?, length, moved, if_neg (by omega), Option.map_id, id,
      List.getLast?_eq_getElem?]

theorem Alternating.drag (alternating : ps.Alternating) (grips : ps.Grips i) (delta : Point) :
    ∃ qs, ps.drag i delta = some qs ∧ qs.Alternating ∧ qs.head? = ps.head? ∧
      qs.getLast? = ps.getLast? := by
  have dragged := alternating.drag_eq grips delta
  have length := length_drag dragged
  have moved := getElem?_modify_pair ps i (shift delta (if i % 2 = 1 then .horizontal else .vertical))
  refine ⟨_, dragged, alternating.of_moved length _ moved ?_, ends_of_moved grips.1 length moved⟩
  intro j p q within joint
  by_cases here : j = i
  · -- Both ends of the piece itself go as far.
    subst here
    grind [Joint, shift, Point.withX, Point.withY]
  · -- At most one end of another piece goes, along the piece.
    grind [Joint, shift, Point.withX, Point.withY]

end Plan

namespace Route

open Plan (Alternating)

theorem alternating_around {start stop : Point} {obstacles : List Rect} {settings : RoutingSettings}
    {ps : Plan} (found : around start stop obstacles settings = segmented ps) : ps.Alternating := by
  unfold around at found
  split at found
  · next qs hplan =>
    split at found
    · next bent =>
      obtain rfl := segmented.inj found
      exact Plan.alternating_of_admissible (Lattice.admissible_of_findPlan hplan) bent
    · exact absurd found (by simp)
  · exact absurd found (by simp)

/-- What happens to the route of a cable: its anchors move, or one of its pieces is dragged. -/
inductive Edit where
  | reanchor (start stop : Point)
  | drag (i : Nat) (delta : Point)
  deriving DecidableEq, Repr

def edit (r : Route) : Edit → Route
  | .reanchor start stop => r.reanchor start stop
  | .drag i delta =>
    match r with
    | straight => straight
    | segmented ps => segmented ((ps.drag i delta).getD ps)

def Grips : Route → Edit → Prop
  | segmented ps, .drag i _ => ps.Grips i
  | _, _ => True

def GripsAll (r : Route) : List Edit → Prop
  | [] => True
  | e :: es => r.Grips e ∧ (r.edit e).GripsAll es

instance : (r : Route) → (e : Edit) → Decidable (r.Grips e)
  | segmented ps, .drag i _ => inferInstanceAs (Decidable (ps.Grips i))
  | segmented _, .reanchor _ _ | straight, _ => .isTrue trivial

instance decidableGripsAll : (r : Route) → (es : List Edit) → Decidable (r.GripsAll es)
  | _, [] => .isTrue trivial
  | r, e :: es =>
    have := decidableGripsAll (r.edit e) es
    inferInstanceAs (Decidable (_ ∧ _))

theorem alternating_edit {ps : Plan} {e : Edit} (alternating : ps.Alternating)
    (grips : (segmented ps).Grips e) :
    ∃ qs, (segmented ps).edit e = segmented qs ∧ qs.Alternating := by
  cases e with
  | reanchor start stop => exact alternating.reanchor start stop
  | drag i delta =>
    obtain ⟨qs, dragged, kept, -⟩ := alternating.drag grips delta
    exact ⟨qs, by rw [edit, dragged, Option.getD_some], kept⟩

theorem alternating_edits {ps : Plan} {es : List Edit} (alternating : ps.Alternating)
    (grips : (segmented ps).GripsAll es) :
    ∃ qs, es.foldl edit (segmented ps) = segmented qs ∧ qs.Alternating := by
  induction es generalizing ps with
  | nil => exact ⟨ps, rfl, alternating⟩
  | cons e es ih =>
    obtain ⟨qs, edited, kept⟩ := alternating_edit alternating grips.1
    rw [List.foldl_cons, edited]
    exact ih kept (edited ▸ grips.2)

/-- Plans that the program makes alternate. One that alternates goes on doing so when its anchors move,
wherever to, and when a piece is dragged that is horizontal or not empty; the drag is not refused, and
leaves the ends. So however often that happens the cable does not lose its plan. -/
theorem alternating_lasts :
    (∀ start stop obstacles settings ps,
      around start stop obstacles settings = segmented ps → ps.Alternating) ∧
    (∀ start stop, (Plan.initial start stop).Alternating) ∧
    ∀ ps : Plan, ps.Alternating →
      (∀ start stop, ∃ qs, (segmented ps).reanchor start stop = segmented qs ∧ qs.Alternating) ∧
      (∀ i delta, ps.Grips i → ∃ qs, ps.drag i delta = some qs ∧ qs.Alternating ∧
        qs.head? = ps.head? ∧ qs.getLast? = ps.getLast?) ∧
      ∀ es, (segmented ps).GripsAll es →
        ∃ qs, es.foldl edit (segmented ps) = segmented qs ∧ qs.Alternating := by
  refine ⟨fun _ _ _ _ _ found => alternating_around found, Plan.alternating_initial, ?_⟩
  intro ps alternating
  refine ⟨alternating.reanchor, ?_, ?_⟩
  · intro i delta grips
    exact alternating.drag grips delta
  · intro es grips
    exact alternating_edits alternating grips

/-- A cable between anchors of one column, kinked to the side, led to anchors of one row, and bent. -/
theorem alternating_lasts_kinked :
    let column : Plan := Plan.initial ⟨0, 0⟩ ⟨0, 90⟩;
    let es : List Edit := [.drag 2 ⟨40, 0⟩, .reanchor ⟨0, 0⟩ ⟨40, 0⟩, .drag 3 ⟨0, -100⟩];
    column.Alternating ∧ (segmented column).GripsAll es ∧
      ∃ qs, es.foldl edit (segmented column) = segmented qs ∧ qs.Alternating := by
  intro column es
  obtain ⟨-, initial, lasts⟩ := alternating_lasts
  have alternating := initial ⟨0, 0⟩ ⟨0, 90⟩
  have grips : (segmented column).GripsAll es := by decide
  exact ⟨alternating, grips, (lasts column alternating).2.2 es grips⟩

end Route

end Patchbay
