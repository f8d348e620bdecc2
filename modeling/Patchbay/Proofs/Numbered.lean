import Patchbay.Proofs.Calls
import Patchbay.Proofs.Passes

/-!
# Jacks that are numbered

A box is made with its inlets and outlets numbered, and refreshing keeps the numbers. So whatever is
done with a canvas, and with whatever documents, every box on it has its inlets and then its outlets,
each numbered from zero.
-/

namespace Patchbay

namespace Scene

def Numbered (s : Scene) : Prop := ∀ e ∈ s.boxes, e.2.Numbered

variable {s t : Scene} {l : Listing} {k : Nat} {b : Box}

theorem numbered_empty : Numbered {} :=
  fun _ he => absurd (Arena.mem_entries.1 he).1 List.not_mem_nil

theorem Numbered.of_outline (numbered : s.Numbered) (same : t.outline = s.outline) : t.Numbered :=
  boxes_of_outline (P := fun g => g.labels
    = Jack.labels .inlet g.inletCount ++ Jack.labels .outlet g.outletCount) same numbered

theorem Numbered.subset (numbered : s.Numbered) (sub : t.boxes ⊆ s.boxes) : t.Numbered :=
  fun e he => numbered e (sub he)

theorem Numbered.addBox (numbered : s.Numbered) (new : b.Numbered) : (s.addBox b).2.Numbered := by
  intro e he
  rcases Arena.of_mem_entries_insert he with old | rfl
  · exact numbered e old
  · exact new

theorem Numbered.updateBox (numbered : s.Numbered) {f : Box → Box}
    (same : ∀ b, b.Numbered → (f b).Numbered) : (s.updateBox k f).Numbered := by
  intro e he
  rw [boxes_updateBox] at he
  rcases Keyed.of_mem_update he with ⟨he, -⟩ | ⟨b, hb, rfl⟩
  · exact numbered e he
  · exact same b (numbered _ hb)

theorem Numbered.raise (numbered : s.Numbered) (k : Nat) : (s.raise k).Numbered :=
  numbered.subset (boxes_raise s k ▸ List.Subset.refl _)

theorem Numbered.showNode (numbered : s.Numbered) (report : SyncReport) (e : NodeEntry) :
    (showNode l (s, report) e).1.Numbered := by
  simp only [Scene.showNode]
  split
  · exact numbered
  · next info _ =>
    split
    · exact (numbered.updateBox fun b old => old.renew info e.index).raise _
    · exact (numbered.addBox (Box.numbered_ofInfo e.handle info e.index)).raise _

theorem Numbered.prune (numbered : s.Numbered) (l : Listing) : (s.prune l).Numbered :=
  numbered.subset (boxes_prune l s ▸ List.filter_subset_self _)

theorem Numbered.showNodes (numbered : s.Numbered) (report : SyncReport) :
    (showNodes l (s, report)).1.Numbered :=
  List.foldlRecOn (motive := fun state : Scene × SyncReport => state.1.Numbered) _ _ numbered
    fun state numbered e _ => numbered.showNode state.2 e

theorem Numbered.reconcile (numbered : s.Numbered) (l : Listing) :
    (s.reconcile l).1.Numbered := by
  have shown := (numbered.prune l).showNodes (l := l) {}
  intro e he
  rw [boxes_congr (boxArena_reconcile s l)] at he
  exact shown e (mem_sortBoxes.1 he)

end Scene

namespace Canvas

variable {c : Canvas}

theorem Outcome.numbered {δ : Type} [Document δ] {d e : δ} {s t : Scene}
    (outcome : Outcome s d t e) (numbered : s.Numbered) : t.Numbered := by
  cases outcome with
  | same outline => exact numbered.of_outline outline
  | reconciled outline => exact (numbered.reconcile _).of_outline outline
  | placed position outline =>
    exact (numbered.addBox (Box.numbered_of_bare rfl rfl rfl)).of_outline outline
  | dropped keys blank outline =>
    refine (numbered.subset ?_).of_outline outline
    rw [Scene.boxes_foldl_removeBox]
    exact List.filter_subset_self _
  | committed key handle text position made blank created closed outline =>
    exact Scene.Numbered.of_outline (numbered.updateBox (by exact fun _ old => old)) outline

theorem Reached.numbered (reached : Reached c) : c.scene.Numbered := by
  induction reached with
  | ofSettings settings => exact Scene.numbered_empty
  | call _ d call ih => exact (call.outcome _ d).numbered ih

end Canvas

end Patchbay
