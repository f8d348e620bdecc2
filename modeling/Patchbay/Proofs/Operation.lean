import Patchbay.Proofs.Change

/-!
# Recorded operations

Each call that a patch records either is refused or leaves a trail: the changes that it hands to
the history lead from the contents before it to the contents after it. The history itself is
only written, so neither the changes nor the outcome depend on what it holds.
-/

namespace Patchbay

open Keyed (keys)

/-- Where the changes of a gesture go: into the innermost open sequence, else into a new step. -/
def History.note (h : History) (label : String) (cs : List Change) : History :=
  if cs = [] then h
  else match h.sequences with
    | s :: rest => { h with sequences := { s with changes := s.changes ++ cs } :: rest }
    | [] => h.push ⟨label, cs⟩

@[simp] theorem History.note_nil (h : History) (label : String) : h.note label [] = h := by
  simp [History.note]

/-- No node stands twice, and the next handle is past every handle in use. -/
structure Patch.Sound (p : Patch) : Prop where
  nodup : (keys p.nodes).Nodup
  nodes_below : ∀ h ∈ keys p.nodes, h < p.next
  wires_below : ∀ w ∈ p.wires, w.handle < p.next

def Patch.heldToken (p : Patch) (e : Ends) : String :=
  ((p.wires.find? (·.ends == e)).map Wire.token).getD ""

/-- A wire is removed with a token of the caller's, or else with the one that it holds. -/
inductive Operation where
  | createNode (text : String) (position : Point)
  | moveNode (handle : Nat) (delta : Point)
  | moveNodeTo (handle : Nat) (position : Point)
  | setBounds (handle : Nat) (bounds : Rect)
  | removeNodes (handles : List Nat)
  | connect (ends : Ends)
  | disconnect (ends : Ends) (token : Option String)
  | setToken (handle : Nat) (token : String)
  deriving DecidableEq, Repr

namespace Operation

def run : Operation → Patch → Except EditError Patch
  | createNode text position, p => .ok (p.createNode text position).2
  | moveNode h delta, p => p.moveNode h delta
  | moveNodeTo h position, p => p.moveNodeTo h position
  | setBounds h bounds, p => p.setBounds h bounds
  | removeNodes hs, p => p.removeNodes hs
  | connect e, p => (p.connect e).map (·.2)
  | disconnect e token, p => p.disconnect e (token.getD (p.heldToken e))
  | setToken h token, p => p.setToken h token

/-- A wire goes with the token that it holds. -/
def KeepsToken : Operation → Prop
  | disconnect _ token => token = none
  | _ => True

end Operation

namespace Patch

variable {strict : Prop} {p q : Patch}

def withHistory (p : Patch) (h : History) : Patch := { p with history := h }

@[simp] theorem toContents_withHistory (p : Patch) (h : History) :
    (p.withHistory h).toContents = p.toContents := rfl

@[simp] theorem history_withHistory (p : Patch) (h : History) : (p.withHistory h).history = h := rfl

theorem Sound.withHistory (sound : p.Sound) (h : History) : (p.withHistory h).Sound :=
  ⟨sound.nodup, sound.nodes_below, sound.wires_below⟩

/-- What is the same whatever history the patch has: the call is refused, or it makes a trail of
changes and tells the history of no others. -/
inductive Effect (strict : Prop) (call : Patch → Except EditError Patch) (p : Patch) : Prop
  | refused (e : EditError) (same : ∀ h, call (p.withHistory h) = .error e)
  | made (cs : List Change) (q : Patch) (trail : Trail strict cs p.toContents q.toContents)
      (sound : q.Sound)
      (same : ∀ h, call (p.withHistory h) = .ok (q.withHistory (h.note "" cs)))

theorem Effect.of_eq {call call' : Patch → Except EditError Patch}
    (effect : Effect strict call p)
    (h : ∀ h, call' (p.withHistory h) = call (p.withHistory h)) : Effect strict call' p := by
  cases effect with
  | refused e same => exact .refused e fun k => (h k).trans (same k)
  | made cs q trail sound same => exact .made cs q trail sound fun k => (h k).trans (same k)

theorem Sound.of_sublist (sound : p.Sound) (hn : (keys q.nodes).Sublist (keys p.nodes))
    (hw : (q.wires.map (·.handle)).Sublist (p.wires.map (·.handle))) (hnext : q.next = p.next) :
    q.Sound where
  nodup := hn.nodup sound.nodup
  nodes_below h hh := hnext ▸ sound.nodes_below h (hn.subset hh)
  wires_below w hw' := by
    obtain ⟨v, hv, he⟩ := List.mem_map.1 (hw.subset (List.mem_map_of_mem hw'))
    exact hnext ▸ he ▸ sound.wires_below v hv

theorem lt_freshHandle {h : Nat} (below : h < p.next) : h < p.freshHandle :=
  Nat.lt_of_lt_of_le below (Nat.le_max_left _ _)

theorem createNode_effect (sound : p.Sound) (text : String) (position : Point) :
    Effect strict (fun p => .ok (p.createNode text position).2) p := by
  have fresh : p.freshHandle ∉ keys p.nodes := fun hm =>
    Nat.lt_irrefl _ (lt_freshHandle (sound.nodes_below _ hm))
  have made : Change.Made strict _ _ _ := .addNode (newNode text position) fresh
  refine .made _ (p.insertNode (newNode text position)).2 (.single made) ?_ fun h => rfl
  refine ⟨made.nodup_keys sound.nodup, ?_, fun w hw => ?_⟩
  · exact Keyed.lt_append fun h hh => lt_freshHandle (sound.nodes_below h hh)
  · exact Nat.lt_succ_of_lt (lt_freshHandle (sound.wires_below w hw))

theorem setBounds_effect (sound : p.Sound) (k : Nat) (bounds : Rect) :
    Effect strict (fun p => p.setBounds k bounds) p := by
  cases there : p.node? k with
  | none => exact .refused (.unknownNode k) fun h => by simp [setBounds, there]
  | some n =>
    by_cases same : n.bounds = bounds
    · exact .made [] p .nil sound fun h => by simp [setBounds, there, same]
    · refine .made [.setBounds k n.bounds bounds]
        { p with toContents := p.updateNode k fun n => { n with bounds := bounds } }
        (.single (.setBounds bounds there)) ?_ fun h => ?_
      · exact sound.of_sublist (by simp [Contents.updateNode]) (List.Sublist.refl _) rfl
      · simp only [setBounds, toContents_withHistory, there, same, if_false]
        rfl

theorem moveNode_effect (sound : p.Sound) (k : Nat) (delta : Point) :
    Effect strict (fun p => p.moveNode k delta) p := by
  cases there : p.node? k with
  | none => exact .refused (.unknownNode k) fun h => by simp [moveNode, there]
  | some n =>
    exact (setBounds_effect sound k (n.bounds.shifted delta)).of_eq fun h => by
      simp [moveNode, there]

theorem moveNodeTo_effect (sound : p.Sound) (k : Nat) (position : Point) :
    Effect strict (fun p => p.moveNodeTo k position) p := by
  cases there : p.node? k with
  | none => exact .refused (.unknownNode k) fun h => by simp [moveNodeTo, there]
  | some n =>
    exact (setBounds_effect sound k (n.bounds.withPosition position)).of_eq fun h => by
      simp [moveNodeTo, there]

theorem setToken_effect (sound : p.Sound) (k : Nat) (token : String) :
    Effect strict (fun p => p.setToken k token) p := by
  cases there : p.wire? k with
  | none => exact .refused (.unknownWire k) fun h => by simp [setToken, there]
  | some w =>
    by_cases same : w.token = token
    · exact .made [] p .nil sound fun h => by simp [setToken, there, same]
    · refine .made [.setToken k w.token token]
        { p with toContents := p.toContents.setToken k token }
        (.single (.setToken token there)) ?_ fun h => ?_
      · have hb := congrArg (List.map Prod.fst) (Contents.map_bare_writeToken k token p.wires)
        simp only [List.map_map] at hb
        exact sound.of_sublist (List.Sublist.refl _) (hb ▸ List.Sublist.refl _) rfl
      · simp only [setToken, toContents_withHistory, there, same, if_false]
        rfl

theorem connect_effect (sound : p.Sound) (e : Ends) :
    Effect strict (fun p => (p.connect e).map (·.2)) p := by
  have blind (h : History) : (p.withHistory h).connectionFault e = p.connectionFault e := rfl
  cases hf : p.connectionFault e with
  | some fault =>
    exact .refused fault fun h => by simp [connect, insertWire, blind, hf, Except.map]
  | none =>
    have fresh : ∀ v ∈ p.wires, v.handle ≠ p.freshHandle := fun v hv =>
      Nat.ne_of_lt (lt_freshHandle (sound.wires_below v hv))
    have below {h : Nat} (hh : h < p.next) : h < p.freshHandle + 1 :=
      Nat.lt_succ_of_lt (lt_freshHandle hh)
    refine .made [.addWire p.wires.length ⟨p.freshHandle, e, ""⟩]
      { p with wires := p.wires ++ [⟨p.freshHandle, e, ""⟩], next := p.freshHandle + 1 }
      (.single (.addWire _ fresh)) ?_ fun h => ?_
    · refine ⟨sound.nodup, fun h hh => below (sound.nodes_below h hh), fun w hw => ?_⟩
      rcases List.mem_append.1 hw with hold | hnew
      · exact below (sound.wires_below w hold)
      · obtain rfl := List.mem_singleton.1 hnew
        exact Nat.lt_succ_self _
    · simp only [connect, insertWire, blind, hf]
      rfl

theorem find?_of_findIdx? {e : Ends} {i : Nat}
    (index : p.wires.findIdx? (·.ends == e) = some i) :
    ∃ hi : i < p.wires.length, p.wires.find? (·.ends == e) = some p.wires[i] := by
  obtain ⟨hi, -, -⟩ := List.findIdx?_eq_some_iff_getElem.1 index
  refine ⟨hi, ?_⟩
  rw [List.find?_eq_bind_findIdx?_getElem?, index, Option.bind_some, List.getElem?_eq_getElem hi]

theorem disconnect_effect (sound : p.Sound) (e : Ends) (token : Option String)
    (keeps : strict → token = none) :
    Effect strict (fun p => p.disconnect e (token.getD (p.heldToken e))) p := by
  have blind (h : History) : (p.withHistory h).heldToken e = p.heldToken e := rfl
  cases hidx : p.wires.findIdx? (·.ends == e) with
  | none => exact .refused (.noWire e) fun h => by simp [disconnect, hidx]
  | some i =>
    obtain ⟨hi, found⟩ := find?_of_findIdx? hidx
    have there : p.wires[i]? = some p.wires[i] := List.getElem?_eq_getElem hi
    have held : p.heldToken e = p.wires[i].token := by simp [heldToken, found]
    refine .made [.removeWire i { p.wires[i] with token := token.getD (p.heldToken e) }]
      { p with wires := p.wires.eraseIdx i }
      (.single (.removeWire i _ _ there fun hs => ?_)) ?_ fun h => ?_
    · rw [keeps hs, Option.getD_none, held]
    · exact sound.of_sublist (List.Sublist.refl _) ((List.eraseIdx_sublist _ _).map _) rfl
    · simp only [disconnect, toContents_withHistory, blind, hidx, found]
      rfl

theorem detach_trail (hs : List Nat) (nodes : Keyed Node) (kept wires : List Wire) :
    Trail strict (detach hs kept.length wires).2 ⟨nodes, kept ++ wires⟩
      ⟨nodes, kept ++ (detach hs kept.length wires).1⟩ := by
  induction wires generalizing kept with
  | nil => exact .nil
  | cons w rest ih =>
    by_cases hw : hs.contains w.ends.inletOwner || hs.contains w.ends.outletOwner
    · have there : (kept ++ w :: rest)[kept.length]? = some w := by simp
      have gone : (kept ++ w :: rest).eraseIdx kept.length = kept ++ rest := by
        rw [List.eraseIdx_append_of_length_le (Nat.le_refl _), Nat.sub_self, List.eraseIdx_zero,
          List.tail_cons]
      have made : Change.Made strict (.removeWire kept.length w) ⟨nodes, kept ++ w :: rest⟩
          ⟨nodes, kept ++ rest⟩ := gone ▸ .removeWire kept.length w w.token there fun _ => rfl
      simpa only [detach, hw, if_true] using Trail.cons made (ih kept)
    · have hkept := ih (kept ++ [w])
      rw [List.length_append, List.length_singleton] at hkept
      simpa only [detach, hw, Bool.false_eq_true, if_false, List.append_assoc,
        List.singleton_append] using hkept

theorem detach_sublist (hs : List Nat) (n : Nat) (wires : List Wire) :
    (detach hs n wires).1.Sublist wires := by
  induction wires generalizing n with
  | nil => exact List.Sublist.refl _
  | cons w rest ih =>
    simp only [detach]
    split
    · exact (ih n).cons w
    · exact (ih (n + 1)).cons_cons w

theorem takeOut_trail (hs : List Nat) (nodes : Keyed Node) (wires : List Wire) :
    Trail strict (takeOut hs nodes).2 ⟨nodes, wires⟩ ⟨(takeOut hs nodes).1, wires⟩ := by
  induction hs generalizing nodes with
  | nil => exact .nil
  | cons h rest ih =>
    simp only [takeOut]
    split
    case h_1 i n hidx hget =>
      have there := Keyed.getElem?_of_findIdx? hidx hget
      exact .cons (.removeNode (a := ⟨nodes, wires⟩) there) (ih (nodes.eraseIdx i))
    case h_2 => exact ih nodes

theorem takeOut_sublist (hs : List Nat) (nodes : Keyed Node) :
    (takeOut hs nodes).1.Sublist nodes := by
  induction hs generalizing nodes with
  | nil => exact List.Sublist.refl _
  | cons h rest ih =>
    simp only [takeOut]
    split
    · exact (ih _).trans (List.eraseIdx_sublist _ _)
    · exact ih nodes

theorem removeNodes_effect (sound : p.Sound) (hs : List Nat) :
    Effect strict (fun p => p.removeNodes hs) p := by
  cases missing : hs.find? fun h => !p.hasNode h with
  | some k => exact .refused (.unknownNode k) fun h => by simp [removeNodes, missing]
  | none =>
    have unwired : Trail strict (detach hs 0 p.wires).2 p.toContents
        ⟨p.nodes, (detach hs 0 p.wires).1⟩ := by
      have h : Trail strict _ _ _ := detach_trail hs p.nodes [] p.wires
      simpa using h
    refine .made ((detach hs 0 p.wires).2 ++ (takeOut hs p.nodes).2)
      { p with wires := (detach hs 0 p.wires).1, nodes := (takeOut hs p.nodes).1 }
      (unwired.append (takeOut_trail hs p.nodes _)) ?_ fun h => ?_
    · exact sound.of_sublist ((takeOut_sublist hs p.nodes).map _)
        ((detach_sublist hs 0 p.wires).map _) rfl
    · simp only [removeNodes, toContents_withHistory, missing]
      rfl

end Patch

/-- Every recorded operation is refused or leaves a trail. -/
theorem Operation.run_effect {strict : Prop} {p : Patch} (sound : p.Sound) (o : Operation)
    (keeps : strict → o.KeepsToken) : Patch.Effect strict o.run p := by
  cases o with
  | createNode text position => exact Patch.createNode_effect sound text position
  | moveNode k delta => exact Patch.moveNode_effect sound k delta
  | moveNodeTo k position => exact Patch.moveNodeTo_effect sound k position
  | setBounds k bounds => exact Patch.setBounds_effect sound k bounds
  | removeNodes hs => exact Patch.removeNodes_effect sound hs
  | connect e => exact Patch.connect_effect sound e
  | disconnect e token => exact Patch.disconnect_effect sound e token keeps
  | setToken k token => exact Patch.setToken_effect sound k token

end Patchbay
