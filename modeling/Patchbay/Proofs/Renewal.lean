import Patchbay.Proofs.Order
import Patchbay.Proofs.Refresh

/-!
# What showing the nodes leaves behind

Node after node, its box is refreshed or made and raised to the top. So in the end the boxes of the
nodes lie on top in the order of the document, over what was there before in its old order.
-/

namespace Patchbay.Scene

open Keyed (keys)

/-- A box that came to show a node: a new one under a new key, or one that was there, refreshed. -/
def Renews (old : Scene) (e : Nat × Box) (h : Nat) (n : Node) (j : Nat) : Prop :=
  e.2 = Box.ofInfo h n.info j ∧ old.nextBox ≤ e.1 ∨
    ∃ b, (e.1, b) ∈ old.boxes ∧ b.handle = some h ∧ e.2 = b.renew n.info j

/-- Where the first nodes have come to be shown by some boxes, in their order. -/
structure Renewed (nodes : Keyed Node) (old : Scene) (shown : Keyed Box) (s : Scene) : Prop where
  rows : ∀ j e, shown[j]? = some e → ∃ h n, nodes[j]? = some (h, n) ∧ Renews old e h n j
  here : ∀ e ∈ shown, e ∈ s.boxes
  layers : s.layers = (old.layers.filter fun y => !(keys shown).contains y.key)
    ++ shown.flatMap fun e => layersOf e.1 e.2
  others : ∀ e ∈ s.boxes, e ∈ shown ∨ e ∈ old.boxes
  next : old.nextBox ≤ s.nextBox
  stays : ∀ k ∈ keys old.boxes, k ∈ keys s.boxes

variable {nodes : Keyed Node} {blanks shown : Keyed Box} {old s : Scene} {l : Listing}
  {e : Nat × Box} {h i j k : Nat} {n : Node} {b : Box}

theorem Renews.handle (renews : Renews old e h n j) : e.2.handle = some h := by
  rcases renews with ⟨new, -⟩ | ⟨b, -, named, refreshed⟩
  · rw [new]
    rfl
  · rw [refreshed]
    exact (b.handle_renew n.info j).trans named

theorem Renews.steady (renews : Renews old e h n j) : e.2.Steady n.info j := by
  rcases renews with ⟨new, -⟩ | ⟨b, -, -, refreshed⟩
  · rw [new]
    exact Box.steady_ofInfo h n.info j
  · rw [refreshed]
    exact Box.steady_renew b n.info j

theorem mem_layersOf {y : Layer} (mem : y ∈ layersOf k b) : y.key = k := by
  unfold layersOf at mem
  split at mem
  · rcases List.mem_cons.1 mem with rfl | mem
    · rfl
    · rw [List.mem_singleton.1 mem]
      rfl
  · rw [List.mem_singleton.1 mem]
    rfl

theorem filter_layers_of_below {below : List Layer} (apart : ∀ y ∈ below, y.key ∉ keys shown) :
    ((below ++ shown.flatMap fun e => layersOf e.1 e.2).filter
      fun y => !(keys shown).contains y.key) = below := by
  have kept : (below.filter fun y => !(keys shown).contains y.key) = below :=
    List.filter_eq_self.2 fun y hy => by simp [apart y hy]
  have gone : ((shown.flatMap fun e => layersOf e.1 e.2).filter
      fun y => !(keys shown).contains y.key) = [] := by
    refine List.filter_eq_nil_iff.2 fun y hy => ?_
    obtain ⟨e, he, hy⟩ := List.mem_flatMap.1 hy
    have known : y.key ∈ keys shown := mem_layersOf hy ▸ Keyed.mem_keys_of_mem he
    simp [known]
  rw [List.filter_append, kept, gone, List.append_nil]

theorem layers_raise (there : s.box? k = some b) :
    (s.raise k).layers = s.layers.filter (fun y => y.key != k) ++ layersOf k b := by
  simp only [raise, there]

theorem Renewed.start (nodes : Keyed Node) (s : Scene) : Renewed nodes s [] s where
  rows j e hj := absurd hj (by simp)
  here e he := absurd he List.not_mem_nil
  layers := by simp [keys]
  others e he := Or.inr he
  next := Nat.le_refl _
  stays k hk := hk

theorem Renewed.handle_ne (renewed : Renewed nodes old shown s) (nodup : (keys nodes).Nodup)
    (there : nodes[shown.length]? = some (h, n)) (mem : e ∈ shown) : e.2.handle ≠ some h := by
  intro same
  obtain ⟨j, hj⟩ := List.mem_iff_getElem?.1 mem
  obtain ⟨g, m, hg, renews⟩ := renewed.rows j e hj
  obtain rfl : g = h := Option.some.inj (renews.handle.symm.trans same)
  obtain rfl : j = shown.length := Keyed.getElem?_inj nodup hg there
  rw [List.getElem?_length] at hj
  exact absurd hj (by simp)

theorem Renewed.raise {t : Scene} (renewed : Renewed nodes old shown s)
    (there : nodes[shown.length]? = some (h, n)) (renews : Renews old (k, b) h n shown.length)
    (exact : t.boxArena.Exact) (found : t.box? k = some b) (here : ∀ e ∈ shown, e ∈ t.boxes ∧ e.1 ≠ k)
    (others : ∀ e ∈ t.boxes, e = (k, b) ∨ e ∈ s.boxes)
    (layers : t.layers.filter (fun y => y.key != k) = s.layers.filter fun y => y.key != k)
    (next : s.nextBox ≤ t.nextBox) (stays : ∀ k ∈ keys s.boxes, k ∈ keys t.boxes) :
    Renewed nodes old (shown ++ [(k, b)]) (t.raise k) := by
  refine ⟨?_, ?_, ?_, ?_, ?_, ?_⟩
  · intro j e hj
    rcases Nat.lt_or_ge j shown.length with before | last
    · exact renewed.rows j e (by rwa [List.getElem?_append_left before] at hj)
    · rw [List.getElem?_append_right last] at hj
      obtain ⟨hlt, rfl⟩ := List.getElem?_eq_some_iff.1 hj
      obtain rfl : j = shown.length := by
        simp only [List.length_singleton] at hlt
        omega
      simp only [Nat.sub_self, List.getElem_cons_zero]
      exact ⟨h, n, there, renews⟩
  · intro e he
    rw [boxes_raise]
    rcases List.mem_append.1 he with old | new
    · exact (here e old).1
    · rw [List.mem_singleton.1 new]
      exact mem_boxes exact found
  · have apart : (shown.flatMap fun e => layersOf e.1 e.2).filter (fun y => y.key != k)
        = shown.flatMap fun e => layersOf e.1 e.2 := by
      refine List.filter_eq_self.2 fun y hy => ?_
      obtain ⟨e, he, hye⟩ := List.mem_flatMap.1 hy
      simpa [mem_layersOf hye] using (here e he).2
    rw [layers_raise found, layers, renewed.layers, List.filter_append, apart, List.filter_filter,
      List.flatMap_append, List.flatMap_singleton, List.append_assoc]
    congr 1
    refine List.filter_congr fun y _ => ?_
    rw [Bool.eq_iff_iff]
    simp [keys, and_comm]
  · intro e he
    rw [boxes_raise] at he
    rcases others e he with rfl | he
    · exact Or.inl (List.mem_append_right _ (List.mem_singleton_self _))
    · exact (renewed.others e he).imp_left (List.mem_append_left _)
  · rw [nextBox_raise]
    exact Nat.le_trans renewed.next next
  · intro j hj
    rw [boxes_raise]
    exact stays j (renewed.stays j hj)

theorem Renewed.showNode (renewed : Renewed nodes old shown s)
    (staged : Staged nodes blanks shown.length s) (nodup : (keys nodes).Nodup)
    (there : nodes[shown.length]? = some (h, n)) (info : l.info h = some n.info)
    (report : SyncReport) : ∃ e,
      Renewed nodes old (shown ++ [e]) (Scene.showNode l (s, report) ⟨h, shown.length⟩).1 := by
  rcases showNode_cases info report shown.length with ⟨k, b, -, mem, named, hs⟩ | ⟨-, hs⟩
  · change _ = (s.updateBox k fun b => b.renew n.info shown.length).raise k at hs
    have hboxes : (s.updateBox k fun b => b.renew n.info shown.length).boxes
        = Keyed.update s.boxes k fun b => b.renew n.info shown.length := boxes_updateBox ..
    have other : (k, b) ∉ shown := fun he => renewed.handle_ne nodup there he named
    have was : (k, b) ∈ old.boxes := (renewed.others _ mem).resolve_left other
    rw [hs]
    refine ⟨_, renewed.raise there (Or.inr ⟨b, was, named, rfl⟩) (staged.boxOrder.update k _) ?_ ?_
      ?_ rfl (Nat.le_of_eq (Arena.next_update ..).symm) ?_⟩
    · rw [box?_updateBox_self, box?_of_mem mem]
      rfl
    · intro e he
      have ne : e.1 ≠ k := by
        rintro rfl
        exact other (Keyed.eq_of_mem staged.nodup mem (renewed.here e he) ▸ he)
      rw [hboxes]
      exact ⟨Keyed.mem_update_of_ne _ (renewed.here e he) ne, ne⟩
    · intro e he
      rw [hboxes] at he
      rcases Keyed.of_mem_update he with ⟨he, -⟩ | ⟨a, ha, rfl⟩
      · exact Or.inr he
      · rw [Keyed.eq_of_mem staged.nodup ha mem]
        exact Or.inl rfl
    · intro j hj
      rwa [hboxes, Keyed.keys_update]
  · have fresh : s.nextBox ∉ keys s.boxes := fun hk => Nat.lt_irrefl _ (lt_nextBox hk)
    have hboxes := boxes_addBox staged.boxOrder (Box.ofInfo h n.info shown.length)
    rw [hs]
    refine ⟨_, renewed.raise there (b := Box.ofInfo h n.info shown.length)
      (Or.inl ⟨rfl, renewed.next⟩) (staged.boxOrder.insert _) ?_ ?_ ?_ ?_ ?_ ?_⟩
    · rw [box?_addBox, if_pos rfl]
    · intro e he
      have mem := renewed.here e he
      rw [hboxes]
      refine ⟨List.mem_append_left _ mem, ?_⟩
      rintro same
      exact fresh (same ▸ Keyed.mem_keys_of_mem mem)
    · intro e he
      rw [hboxes] at he
      rcases List.mem_append.1 he with he | he
      · exact Or.inr he
      · exact Or.inl (List.mem_singleton.1 he)
    · have top : (layersOf s.nextBox (Box.ofInfo h n.info shown.length)).filter
          (fun y => y.key != s.nextBox) = [] :=
        List.filter_eq_nil_iff.2 fun y hy => by simp [mem_layersOf hy]
      change (s.layers ++ layersOf s.nextBox _).filter _ = _
      rw [List.filter_append, top, List.append_nil]
    · rw [nextBox_addBox]
      exact Nat.le_succ _
    · intro j hj
      rw [hboxes, Keyed.keys_append]
      exact List.mem_append_left _ hj

theorem Renewed.showNodes {c : Contents} (nodup : (keys c.nodes).Nodup)
    (staged : Staged c.nodes blanks 0 s) (report : SyncReport) :
    ∃ shown, shown.length = c.nodes.length ∧
      Renewed c.nodes s shown (Scene.showNodes c.listing (s, report)).1 := by
  refine (showNodes_induction (motive := fun i t => Staged c.nodes blanks i t ∧
    ∃ shown, shown.length = i ∧ Renewed c.nodes s shown t) nodup ?_
    ⟨staged, [], rfl, .start c.nodes s⟩ report).2
  rintro i h n t report there info ⟨staged, shown, rfl, renewed⟩
  obtain ⟨e, renewed'⟩ := renewed.showNode staged nodup there info report
  exact ⟨staged.showNode nodup there info report, shown ++ [e], by simp, renewed'⟩

theorem Renewed.boxes_sortBoxes (renewed : Renewed nodes old shown s)
    (staged : Staged nodes blanks nodes.length s) (all : shown.length = nodes.length) :
    s.sortBoxes.boxes = shown ++ blanks := by
  obtain ⟨shown', hsorted, hshows⟩ := staged.boxes_sortBoxes
  have same : shown' = shown := by
    refine List.ext_getElem (hshows.length_eq.trans all.symm) fun j hj hj' => ?_
    obtain ⟨h, n, hn, renews⟩ := renewed.rows j _ (List.getElem?_eq_getElem hj')
    have hlt : j < nodes.length := (List.getElem?_eq_some_iff.1 hn).1
    obtain ⟨i, shows⟩ := (List.forall₂_iff_get.1 hshows).2 j hj hlt
    have named : shown'[j].2.handle = some h := by
      have hget : nodes[j] = (h, n) := (List.getElem?_eq_some_iff.1 hn).2
      simpa [hget] using shows.handle
    have mem : shown'[j] ∈ s.boxes := by
      rw [← mem_sortBoxes, hsorted]
      exact List.mem_append_left _ (List.getElem_mem hj)
    exact eq_of_handle staged.handles mem (renewed.here _ (List.getElem_mem hj')) named
      renews.handle
  rw [hsorted, same]

end Patchbay.Scene
