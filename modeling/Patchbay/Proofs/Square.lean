import Mathlib.Tactic.Linarith
import Patchbay.Proofs.InStep

/-!
# Squares that are resized

A control that is square is kept so by its ratio: the length that leads is handed to the other one.
Dragged by a corner, both lengths follow, and the control stays square as long as single precision can
tell lengths apart. Where one of the two lengths cannot follow, as no edge of it is dragged or both are,
only a control that is as large as before is square.
-/

namespace Patchbay

namespace Binary

variable {n k : Nat}

theorem scale_natCast (n k : Nat) : scale n 1 k = (n * 2 ^ k, 1) := by
  simp [scale]

theorem scale_neg_natCast (n k : Nat) : scale n 1 (-k) = (n, 2 ^ k) := by
  unfold scale
  split_ifs with level
  · obtain rfl : k = 0 := by omega
    simp
  · simp

theorem exponent_one (positive : 0 < n) : exponent n 1 = n.log2 := by
  have low := Nat.log2_self_le (Nat.ne_of_gt positive)
  have place : ((n.log2 : Nat) : Int) - ((1 : Nat).log2 : Nat) = n.log2 := Int.sub_zero _
  simp only [exponent, place, scale_neg_natCast]
  rw [if_neg (Nat.not_lt.2 low)]

theorem ofScaled_halfEven (n k : Nat) :
    ofScaled (Rounding.halfEven (scale n 1 k).1 (scale n 1 k).2) (-k) = n := by
  have whole := Rounding.halfEven_mul Nat.one_pos (n * 2 ^ k)
  rw [Nat.mul_one] at whole
  simp only [scale_natCast, whole, ofScaled, scale_neg_natCast]
  have cancel := Rat.mkRat_mul_right (n := n) (d := 1) (Nat.two_pow_pos k).ne'
  rw [Nat.one_mul, Rat.mkRat_one] at cancel
  exact_mod_cast cancel

theorem round_natCast (fits : n ≤ 16777216) : single.round n = n := by
  rcases Nat.eq_zero_or_pos n with rfl | positive
  · rfl
  rcases Nat.eq_or_lt_of_le fits with rfl | below
  · -- A digit too many, but the last one is zero.
    rfl
  have digits : n.log2 < 24 := (Nat.log2_lt (Nat.ne_of_gt positive)).2 below
  have place : max (exponent n 1 - ((24 - 1 : Nat) : Int)) (-149) = -((23 - n.log2 : Nat) : Int) := by
    rw [exponent_one positive]
    omega
  have num : (n : Rat).num = n := Rat.num_natCast n
  have nonzero : (n : Int) ≠ 0 := by omega
  have reach : (n : Rat) < (Nat.pow 2 128 : Nat) := by
    exact_mod_cast Nat.lt_of_le_of_lt fits (by decide)
  simp only [round, single, num, Rat.den_natCast, Int.natAbs_natCast, nonzero, if_false]
  rw [place, Int.neg_neg, ofScaled_halfEven, if_pos reach]
  exact if_neg (by omega)

end Binary

namespace Single

variable {z : Int}

theorem ofInt_eq (low : 0 ≤ z) (high : z ≤ 16777216) : ofInt z = z := by
  obtain ⟨n, rfl⟩ := Int.eq_ofNat_of_zero_le low
  exact_mod_cast Binary.round_natCast (n := n) (by omega)

theorem nearest_intCast (low : 0 ≤ z) (high : z ≤ 16777216) : nearest z = z := by
  have whole : Rounding.halfAway z 1 = z := by
    simp only [Rounding.halfAway]
    omega
  simp only [nearest, Rat.num_intCast, Rat.den_intCast, whole]
  exact Rounding.clamp32_of_mem (by omega) (by omega)

theorem nearest_div_one (low : 0 ≤ z) (high : z ≤ 16777216) : nearest (div (ofInt z) 1) = z := by
  have same : round (z : Rat) = z := ofInt_eq low high
  rw [div, ofInt_eq low high, div_one, same, nearest_intCast low high]

theorem nearest_mul_one (low : 0 ≤ z) (high : z ≤ 16777216) : nearest (mul (ofInt z) 1) = z := by
  have same : round (z : Rat) = z := ofInt_eq low high
  rw [mul, ofInt_eq low high, mul_one, same, nearest_intCast low high]

end Single

/-! ## Dragged edges -/

namespace Edges

theorem width_apply (e : Edges) (r : Rect) (d : Point) : (e.apply r d).width
    = r.width + if e.left = e.right then 0 else if e.left then -d.x else d.x := by
  cases hl : e.left <;> cases hr : e.right <;>
    simp [apply, hl, hr, Rect.right] <;> omega

theorem height_apply (e : Edges) (r : Rect) (d : Point) : (e.apply r d).height
    = r.height + if e.top = e.bottom then 0 else if e.top then -d.y else d.y := by
  cases ht : e.top <;> cases hb : e.bottom <;>
    simp [apply, ht, hb, Rect.bottom] <;> omega

variable {e : Edges}

theorem width_apply_withX (across : e.left ≠ e.right) (r : Rect) (d : Point) (change : Int) :
    (e.apply r (d.withX (if e.left then -change else change))).width = r.width + change := by
  rw [width_apply, if_neg across, Point.withX]
  split <;> simp

theorem height_apply_withY (down : e.top ≠ e.bottom) (r : Rect) (d : Point) (change : Int) :
    (e.apply r (d.withY (if e.top then -change else change))).height = r.height + change := by
  rw [height_apply, if_neg down, Point.withY]
  split <;> simp

theorem vertical_of_ne (down : e.top ≠ e.bottom) : e.vertical = true := by
  rw [vertical, Bool.or_eq_true]
  cases ht : e.top with
  | true => exact .inl rfl
  | false => exact .inr (Bool.ne_false_iff.1 fun hb => down (ht.trans hb.symm))

end Edges

namespace Snapper

variable {r : ResizeRequest}

theorem follow_height {e : Edges} {home : Rect} (down : e.top ≠ e.bottom)
    (positive : 0 < (home.reduced margin).height) (offset : Point) {w : Int}
    (lead : w = ((e.apply home offset).reduced margin).width) (fits : w ≤ 16777216) :
    let change := Single.nearest (Single.div (Single.ofInt w) 1) - (home.reduced margin).height
    ((e.apply home (offset.withY (if e.top then -change else change))).reduced margin).height = w := by
  intro change
  have low : 0 ≤ w := lead ▸ Int.le_max_right _ _
  have same : change = w - (home.reduced margin).height := by
    rw [← Single.nearest_div_one low fits]
  have height := Edges.height_apply_withY down home offset change
  rw [same] at height ⊢
  simp only [Rect.reduced] at positive height ⊢
  omega

theorem follow_width {e : Edges} {home : Rect} (across : e.left ≠ e.right)
    (positive : 0 < (home.reduced margin).width) (offset : Point) {h : Int}
    (lead : h = ((e.apply home offset).reduced margin).height) (fits : h ≤ 16777216) :
    let change := Single.nearest (Single.mul (Single.ofInt h) 1) - (home.reduced margin).width
    ((e.apply home (offset.withX (if e.left then -change else change))).reduced margin).width = h := by
  intro change
  have low : 0 ≤ h := lead ▸ Int.le_max_right _ _
  have same : change = h - (home.reduced margin).width := by
    rw [← Single.nearest_mul_one low fits]
  have width := Edges.width_apply_withX across home offset change
  rw [same] at width ⊢
  simp only [Rect.reduced] at positive width ⊢
  omega

theorem keepRatio_corner (across : r.edges.left ≠ r.edges.right) (down : r.edges.top ≠ r.edges.bottom)
    (wide : 0 < (r.home.reduced margin).width) (tall : 0 < (r.home.reduced margin).height)
    (offset : Point) (snappedX snappedY : Bool) :
    let now := (r.edges.apply r.home (keepRatio r 1 offset snappedX snappedY)).reduced margin
    now.width ≤ 16777216 → now.height ≤ 16777216 → now.width = now.height := by
  by_cases lead : (r.edges.horizontal && (snappedX || !snappedY || !r.edges.vertical)) = true
  · rw [keepRatio, if_pos lead]
    intro now fits _
    exact (follow_height down tall offset rfl fits).symm
  · rw [keepRatio, if_neg lead, if_pos (Edges.vertical_of_ne down)]
    intro now _ fits
    exact follow_width across wide offset rfl fits

theorem exists_keepRatio (s : Snapper) {ratio : Rat} (fixed : r.ratio = some ratio)
    (positive : 0 < ratio) (now : Nat) :
    ∃ offset snappedX snappedY, (s.resize r now).2 = keepRatio r ratio offset snappedX snappedY := by
  have applied (offset : Point) (snappedX snappedY : Bool) :
      applyRatio r offset snappedX snappedY = keepRatio r ratio offset snappedX snappedY := by
    simp only [applyRatio, fixed, positive, if_true]
  unfold resize
  split
  · exact ⟨_, _, _, applied _ _ _⟩
  · exact ⟨_, _, _, applied _ _ _⟩

end Snapper

theorem Widget.minimumSize_of_ratio {w : Widget} (ratio : w.fixedRatio = some 1) :
    w.minimumSize = (15, 15) := by
  cases w with
  | control kind square =>
    cases square with
    | true => rfl
    | false => exact absurd ratio (by simp [fixedRatio])
  | _ => exact absurd ratio (by simp [fixedRatio])

namespace Canvas

variable {c t : Canvas} {key : Nat} {edges : Edges} {start : Point} {b : Box} {home now : Rect}

/-! ## Stops -/

theorem width_keepMinimum (r : Rect) (edges : Edges) {minimum : Int × Int} (nonneg : 0 ≤ minimum.1) :
    ((keepMinimum r edges minimum).reduced margin).width
      = max (r.reduced margin).width minimum.1 := by
  simp only [keepMinimum, Rect.reduced]
  omega

theorem height_keepMinimum (r : Rect) (edges : Edges) {minimum : Int × Int} (nonneg : 0 ≤ minimum.2) :
    ((keepMinimum r edges minimum).reduced margin).height
      = max (r.reduced margin).height minimum.2 := by
  simp only [keepMinimum, Rect.reduced]
  omega

/-- What becomes of a square content: a length of which no edge is dragged, or both are, is as it was, and
by a corner the two lengths are one, unless single precision takes part of it. -/
structure Shapes (edges : Edges) (home now : Rect) : Prop where
  across : edges.left = edges.right → now.width = home.width
  down : edges.top = edges.bottom → now.height = home.height
  corner : edges.left ≠ edges.right → edges.top ≠ edges.bottom → now.width ≤ 16777216 →
    now.height ≤ 16777216 → now.width = now.height

/-- If one of the lengths cannot change, what was square stays square only at its size. -/
theorem Shapes.square_iff (shapes : Shapes edges home now) (square : home.width = home.height)
    (stiff : edges.left = edges.right ∨ edges.top = edges.bottom) :
    now.width = now.height ↔ now.width = home.width ∧ now.height = home.height := by
  rcases stiff with across | down
  · have width := shapes.across across
    omega
  · have height := shapes.down down
    omega

theorem shapes_keepMinimum {least : Int} (positive : 0 < least) {d : Point}
    (wide : least ≤ (home.reduced margin).width) (tall : least ≤ (home.reduced margin).height)
    (follows : edges.left ≠ edges.right → edges.top ≠ edges.bottom →
      let now := (edges.apply home d).reduced margin
      now.width ≤ 16777216 → now.height ≤ 16777216 → now.width = now.height) :
    Shapes edges (home.reduced margin)
      ((keepMinimum (edges.apply home d) edges (least, least)).reduced margin) where
  across stiff := by
    have width := edges.width_apply home d
    rw [if_pos stiff] at width
    rw [width_keepMinimum _ _ (Int.le_of_lt positive)]
    simp only [Rect.reduced] at wide ⊢
    omega
  down stiff := by
    have height := edges.height_apply home d
    rw [if_pos stiff] at height
    rw [height_keepMinimum _ _ (Int.le_of_lt positive)]
    simp only [Rect.reduced] at tall ⊢
    omega
  corner across down := by
    have equal := follows across down
    rw [width_keepMinimum _ _ (Int.le_of_lt positive), height_keepMinimum _ _ (Int.le_of_lt positive)]
    dsimp only at equal ⊢
    omega

theorem drag_beginResize (taken : (c.beginResize key edges start).2 = true) :
    ∃ offset, (c.beginResize key edges start).1.drag = .resize key edges start offset := by
  unfold beginResize at taken ⊢
  split at taken
  · exact absurd taken Bool.false_ne_true
  · next free =>
    rw [if_neg free]
    exact ⟨.origin, rfl⟩

theorem drag_widen (drag : ∃ offset, t.drag = .resize key edges start offset)
    (there : (t.scene.box? key).isSome = true) (tug : Tug) :
    ∃ offset, (t.widen tug).drag = .resize key edges start offset := by
  obtain ⟨offset, drag⟩ := drag
  obtain ⟨b, found⟩ := Option.isSome_iff_exists.1 there
  cases tug with
  | stop s =>
    obtain ⟨r, offset', -, drag', -⟩ := widen_stop drag found s
    exact ⟨offset', drag'⟩
  | tune u => exact ⟨offset, (tune_rest t u).2.1.trans drag⟩

theorem Widened.exists_box (widened : Widened c key t) (found : c.scene.box? key = some b) :
    ∃ a, t.scene.box? key = some a ∧ a.home = b.bounds ∧ a.widget = b.widget := by
  obtain ⟨-, -, g, boxes, reshaped⟩ := widened
  refine ⟨g b, ?_, (reshaped b).home, congrArg Box.Tag.widget (reshaped b).tag⟩
  rw [Scene.box?, boxes, Arena.get?_update_self]
  exact congrArg (Option.map g) found

theorem shapes_dragResize {offset : Point} (drag : t.drag = .resize key edges start offset)
    (found : t.scene.box? key = some b) (ratio : b.widget.fixedRatio = some 1)
    (wide : 15 ≤ (b.home.reduced margin).width) (tall : 15 ≤ (b.home.reduced margin).height)
    (position : Point) (bypass : Bool) (now : Nat) :
    ∃ r, (t.dragResize position bypass now).2 = some r ∧
      Shapes edges (b.home.reduced margin) (r.reduced margin) := by
  let request : ResizeRequest :=
    { home := b.home
      offset := position - start
      edges := edges
      ratio := b.widget.fixedRatio
      others := t.restingBounds (some key)
      gridOrigin := t.gridOrigin
      bypass := bypass }
  obtain ⟨raw, snappedX, snappedY, kept⟩ :=
    t.snapper.exists_keepRatio (r := request) ratio one_pos now
  have answer : (t.dragResize position bypass now).2
      = some (keepMinimum (edges.apply b.home (t.snapper.resize request now).2) edges (15, 15)) := by
    simp only [dragResize, drag, found, Widget.minimumSize_of_ratio ratio]
    rfl
  refine ⟨_, answer, shapes_keepMinimum (by decide) wide tall fun across down => ?_⟩
  rw [kept]
  have positive {z : Int} (least : 15 ≤ z) : 0 < z := by omega
  exact Snapper.keepRatio_corner (r := request) across down (positive wide) (positive tall) raw snappedX
    snappedY

/-- A control that is square and not too small is taken up by its edges. At each stop, whatever has been
snapped to, the content that is answered with is square if it was dragged by a corner and is not too long,
and if not by a corner just when it is as large as it was. -/
theorem resize_square (taken : (c.beginResize key edges start).2 = true)
    (found : c.scene.box? key = some b) (ratio : b.widget.fixedRatio = some 1)
    (square : b.content.width = b.content.height) (wide : b.widget.minimumSize.1 ≤ b.content.width)
    (tall : b.widget.minimumSize.2 ≤ b.content.height) (tugs : List Tug) (s : Stop) :
    let t := tugs.foldl widen (c.beginResize key edges start).1
    ∃ r, (t.dragResize s.position s.bypass s.now).2 = some r ∧
      Shapes edges b.content (r.reduced margin) ∧
      (edges.left = edges.right ∨ edges.top = edges.bottom →
        ((r.reduced margin).width = (r.reduced margin).height ↔
          (r.reduced margin).width = b.content.width ∧
            (r.reduced margin).height = b.content.height)) := by
  intro t
  have least := Widget.minimumSize_of_ratio ratio
  -- On the way the control keeps its widget and notes where it was taken up.
  obtain ⟨widened, offset, drag⟩ :
      Widened c key t ∧ ∃ offset, t.drag = .resize key edges start offset := by
    refine List.foldlRecOn (motive := fun t => Widened c key t ∧
      ∃ offset, t.drag = .resize key edges start offset) _ _
      ⟨widened_beginResize taken, drag_beginResize taken⟩ ?_
    rintro t ⟨widened, drag⟩ tug -
    obtain ⟨a, there, -⟩ := widened.exists_box found
    exact ⟨widened.widen tug, drag_widen drag (by rw [there]; rfl) tug⟩
  obtain ⟨a, there, home, widget⟩ := widened.exists_box found
  rw [least] at wide tall
  obtain ⟨r, answer, shapes⟩ := shapes_dragResize drag there (widget ▸ ratio) (home ▸ wide) (home ▸ tall)
    s.position s.bypass s.now
  rw [home] at shapes
  exact ⟨r, answer, shapes, shapes.square_iff square⟩

def checkbox : Node := ⟨"tgl", ⟨0, 0, 20, 20⟩, [false], [false]⟩

def alone (n : Node) : Patch where
  nodes := [(1, n)]
  next := 2

def shown : Canvas := ((ofSettings {}).sync (alone checkbox)).1

def shownBox : Box := Box.ofInfo 1 checkbox.info 0

theorem reached_shown : Reached shown := (Reached.ofSettings {}).call (alone checkbox) .sync

/-- By its lower right corner, twice. -/
theorem resize_square_corner :
    let edges : Edges := { right := true, bottom := true }
    let t := [Tug.stop ⟨⟨60, 20⟩, false, 0⟩].foldl widen (shown.beginResize 1 edges ⟨20, 20⟩).1
    (shown.beginResize 1 edges ⟨20, 20⟩).2 = true ∧ shown.scene.box? 1 = some shownBox ∧
      shownBox.widget.fixedRatio = some 1 ∧ shownBox.content.width = shownBox.content.height ∧
      shownBox.widget.minimumSize.1 ≤ shownBox.content.width ∧
      shownBox.widget.minimumSize.2 ≤ shownBox.content.height ∧
      ∃ r, (t.dragResize ⟨33, 20⟩ true 0).2 = some r ∧
        Shapes edges shownBox.content (r.reduced margin) := by
  have taken : (shown.beginResize 1 { right := true, bottom := true } ⟨20, 20⟩).2 = true := by
    decide +kernel
  have found : shown.scene.box? 1 = some shownBox := by decide +kernel
  obtain ⟨r, answer, shapes, -⟩ := resize_square taken found rfl rfl (by decide) (by decide)
    [.stop ⟨⟨60, 20⟩, false, 0⟩] ⟨⟨33, 20⟩, true, 0⟩
  exact ⟨taken, found, rfl, rfl, by decide, by decide, r, answer, shapes⟩

/-- A square control does not stay one when it is dragged by its right edge alone, nor at a corner when
it is longer than single precision can tell. -/
theorem resize_oblong :
    (¬ ∀ c, Reached c → ∀ key edges start b, (c.beginResize key edges start).2 = true →
      (edges.horizontal || edges.vertical) = true → c.scene.box? key = some b →
      b.widget.fixedRatio = some 1 → b.content.width = b.content.height →
      b.widget.minimumSize.1 ≤ b.content.width → b.widget.minimumSize.2 ≤ b.content.height →
      ∀ (stops : List Stop) (s : Stop) (r : Rect),
        (((stops.map .stop).foldl widen (c.beginResize key edges start).1).dragResize s.position s.bypass
          s.now).2 = some r → (r.reduced margin).width = (r.reduced margin).height) ∧
    ((shown.beginResize 1 { right := true, bottom := true } ⟨20, 20⟩).1.dragResize ⟨16777217, 20⟩ true
      0).2 = some ⟨-5, -5, 16777227, 16777226⟩ := by
  refine ⟨fun always => ?_, by decide +kernel⟩
  have answer : ((shown.beginResize 1 { right := true } ⟨20, 10⟩).1.dragResize ⟨25, 10⟩ true 0).2
      = some ⟨-5, -5, 35, 30⟩ := by decide +kernel
  have square := always shown reached_shown 1 { right := true } ⟨20, 10⟩ shownBox (by decide +kernel) rfl
    (by decide +kernel) rfl rfl (by decide) (by decide) [] ⟨⟨25, 10⟩, true, 0⟩ _ answer
  exact absurd square (by decide)

end Canvas

end Patchbay
