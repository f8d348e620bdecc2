import Patchbay.Proofs.Moved
import Patchbay.Proofs.Retrace

/-!
# What comes back

A canvas that is brought in line with another document and then with its own again shows each node as
before. The cable of a wire that has been in both documents comes back as far as its route was not
lost in between.
-/

namespace Patchbay

open Keyed (keys mapValues)

theorem Box.Steady.alike {a b : Box} {info : NodeInfo} {i : Nat} (first : a.Steady info i)
    (second : b.Steady info i) (numbered : a.Numbered) (numbered' : b.Numbered)
    (handle : a.handle = b.handle) (editing : a.editing = b.editing) : a.Alike b := by
  have widget : a.widget = b.widget := first.widget.trans second.widget.symm
  have bounds : a.bounds = b.bounds := first.bounds.trans second.bounds.symm
  have counts (side : Side) : a.count side = b.count side :=
    (first.counts side).trans (second.counts side).symm
  have labels : a.jackList.map Jack.label = b.jackList.map Jack.label := by
    rw [numbered, numbered', show a.inletCount = b.inletCount from counts .inlet,
      show a.outletCount = b.outletCount from counts .outlet]
  have flags : a.jackList.map Jack.signal = b.jackList.map Jack.signal := by
    have both (b : Box) : b.group .inlet ++ b.group .outlet = b.jackList := List.take_append_drop _ _
    rw [← both a, ← both b, List.map_append, List.map_append, first.flags, first.flags,
      second.flags, second.flags]
  refine ⟨handle, widget, bounds, editing, first.index.trans second.index.symm, counts, labels,
    flags, ?_⟩
  rw [Box.layoutJacks_eq_self_iff.1 first.laid, Box.layoutJacks_eq_self_iff.1 second.laid, labels,
    Box.layout_congr bounds counts, widget]

namespace Scene

variable {c : Contents} {s t : Scene} {shown shown' blanks blanks' bs cs ds : Keyed Box}
  {f : Nat → Box → Box} {g : Nat → Bool} {x y : Cable} {token : String} {a b : Point} {h : Nat}
  {outlet inlet : JackRef} {old : Keyed Cable} {e : WireEntry}

/-- Boxes that differ in nothing but keys and marks. -/
def Resemble (bs cs : Keyed Box) : Prop := List.Forall₂ (fun e e' => e.2.Alike e'.2) bs cs

theorem Resemble.trans (first : Resemble bs cs) (second : Resemble cs ds) : Resemble bs ds := by
  induction first generalizing ds with
  | nil => exact second
  | cons alike _ ih =>
    cases second with
    | cons alike' rest => exact .cons (alike.trans alike') (ih rest)

theorem Resemble.bounds (resemble : Resemble bs cs) : bs.map (·.2.bounds) = cs.map (·.2.bounds) := by
  induction resemble with
  | nil => rfl
  | cons alike _ ih => rw [List.map_cons, List.map_cons, alike.bounds, ih]

theorem resemble_mapValues (alike : ∀ k b, (f k b).Alike b) (bs : Keyed Box) :
    Resemble (mapValues bs f) bs := by
  induction bs with
  | nil => exact .nil
  | cons e bs ih => exact .cons (alike e.1 e.2) ih

theorem Settled.isSome_handle (settled : Settled c shown blanks s) :
    ∀ e ∈ shown, e.2.handle.isSome = true := by
  intro e he
  obtain ⟨j, hj⟩ := List.mem_iff_getElem?.1 he
  obtain ⟨h, n, -, named, -⟩ := settled.rows.2 j e hj
  exact Option.isSome_iff_exists.2 ⟨h, named⟩

theorem Settled.filter_isSome (settled : Settled c shown blanks s) :
    s.boxes.filter (·.2.handle.isSome) = shown := by
  have none : ∀ e ∈ blanks, ¬e.2.handle.isSome = true := fun e he => by simp [settled.blanks e he]
  rw [settled.boxes, List.filter_append, List.filter_eq_self.2 settled.isSome_handle,
    List.filter_eq_nil_iff.2 none, List.append_nil]

theorem Settled.blanks_eq (settled : Settled c shown blanks s) : s.blanks = blanks := by
  have none : ∀ e ∈ blanks, e.2.handle.isNone = true := fun e he => by simp [settled.blanks e he]
  have some : ∀ e ∈ shown, ¬e.2.handle.isNone = true := fun e he => by
    rw [Option.isNone_iff_eq_none, ← ne_eq, Option.ne_none_iff_isSome]
    exact settled.isSome_handle e he
  rw [Scene.blanks, settled.boxes, List.filter_append, List.filter_eq_nil_iff.2 some,
    List.filter_eq_self.2 none, List.nil_append]

/-- Settled scenes show the nodes of a document in one way. -/
theorem Settled.resemble (first : Settled c shown blanks s) (second : Settled c shown' blanks' t)
    (numbered : s.Numbered) (numbered' : t.Numbered) : Resemble shown shown' := by
  refine List.forall₂_iff_get.2 ⟨first.rows.1.trans second.rows.1.symm, fun j hj hj' => ?_⟩
  have there := List.getElem?_eq_getElem hj
  have there' := List.getElem?_eq_getElem hj'
  obtain ⟨h, n, hn, named, steady⟩ := first.rows.2 j _ there
  obtain ⟨h', n', hn', named', steady'⟩ := second.rows.2 j _ there'
  obtain ⟨rfl, rfl⟩ := Prod.mk.inj (Option.some.inj (hn.symm.trans hn'))
  have idle {u : Scene} {shown blanks : Keyed Box} {e : Nat × Box} (settled : Settled c shown blanks u)
      (there : shown[j]? = some e) (named : e.2.handle = some h) : e.2.editing = false := by
    simpa [named] using settled.wf.editing e (settled.mem_shown there)
  exact steady.alike steady' (numbered _ (first.mem_shown there))
    (numbered' _ (second.mem_shown there')) (named.trans named'.symm)
    ((idle first there named).trans (idle second there' named').symm)

/-- A cable for which its wire has nothing new. -/
def UpToDate (x : Cable) (token : String) : Prop := token = x.token ∨ x.unsaved = true

theorem upToDate_of_refreshCable (same : refreshCable x token a b = x) : UpToDate x token := by
  by_cases new : token ≠ x.token ∧ x.unsaved = false
  · rw [refreshCable, if_pos new] at same
    exact Or.inl (congrArg Cable.token same)
  · rcases not_and_or.1 new with same | unsaved
    · exact Or.inl (not_not.1 same)
    · exact Or.inr (by simpa using unsaved)

theorem UpToDate.refreshCable_eq (upToDate : UpToDate x token) (a b : Point) :
    refreshCable x token a b = { x with route := x.route.reanchor a b } := by
  refine if_neg fun ⟨new, saved⟩ => ?_
  rcases upToDate with same | unsaved
  · exact new same
  · exact absurd (saved.symm.trans unsaved) Bool.false_ne_true

theorem Draft.saved (draft : Draft old e token outlet inlet a b x)
    (saved : ∀ y ∈ old, y.2.handle = e.handle → y.2.unsaved = false) :
    x.unsaved = false ∧ x.token = token := by
  cases draft with
  | fresh => exact ⟨rfl, rfl⟩
  | @kept k d mem handle ends =>
    have saved : d.unsaved = false := saved _ mem handle
    unfold refreshCable
    split
    · exact ⟨saved, rfl⟩
    · next same =>
      refine ⟨saved, ?_⟩
      by_contra other
      exact same ⟨Ne.symm other, saved⟩

theorem Pictures.eq_none {boxes : List Box} {G : Route → String → Point → Point → Prop}
    {d : Option Drawing} (pictures : Pictures c boxes G h d) (none : span? c boxes h = none) :
    d = .none := by
  rwa [Pictures, none] at pictures

theorem Pictures.unique {boxes : List Box} {r : String → Point → Point → Route}
    {d d' : Option Drawing} (first : Pictures c boxes (fun route token a b => route = r token a b) h d)
    (second : Pictures c boxes (fun route token a b => route = r token a b) h d') : d = d' := by
  unfold Pictures at first second
  split at first
  · next none =>
    rw [none] at second
    exact first.trans second.symm
  · next spans =>
    rw [spans] at second
    obtain ⟨_, rfl, rfl⟩ := first
    obtain ⟨_, rfl, rfl⟩ := second
    rfl

end Scene

end Patchbay
