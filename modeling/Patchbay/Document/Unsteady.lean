import Patchbay.Patch.Edit

/-!
Documents that change while they are read. A listing may hold every entry twice, or entries
whose details or tokens are gone, and writes of some tokens are refused.
-/

namespace Patchbay

structure Faults where
  listsTwice : Bool := false
  /-- Nodes without details. -/
  vanished : List Nat := []
  /-- Wires without a token. -/
  tokenless : List Nat := []
  /-- Wires whose token cannot be written. -/
  refusing : List Nat := []
  deriving DecidableEq, Repr, Inhabited

structure Unsteady where
  patch : Patch
  faults : Faults

namespace Unsteady

def edit (u : Unsteady) (result : Except EditError Patch) : Except EditError Unsteady :=
  result.map fun p => { u with patch := p }

def twice {α : Type} (u : Unsteady) (xs : List α) : List α :=
  if u.faults.listsTwice then xs ++ xs else xs

def listing (u : Unsteady) : Listing :=
  let steady := u.patch.toContents.listing
  { nodes := u.twice steady.nodes
    wires := u.twice steady.wires
    info := fun h => if u.faults.vanished.contains h then none else steady.info h
    token := fun h => if u.faults.tokenless.contains h then none else steady.token h }

/-- Pending changes arrive on their own; asking for them does nothing. -/
instance : Document Unsteady where
  deliver u := u
  listing := listing
  setToken u h token :=
    if u.faults.refusing.contains h then .error (.unknownWire h) else u.edit (u.patch.setToken h token)
  createNode u text position :=
    let (h, p) := u.patch.createNode text position
    .ok (h, { u with patch := p })
  moveNode u h delta := u.edit (u.patch.moveNode h delta)
  moveNodeTo u h position := u.edit (u.patch.moveNodeTo h position)
  setBounds u h bounds := u.edit (u.patch.setBounds h bounds)
  removeNodes u hs := u.edit (u.patch.removeNodes hs)
  connect u e := (u.patch.connect e).map fun (h, p) => (h, { u with patch := p })
  disconnect u e token := u.edit (u.patch.disconnect e token)
  openSequence u label := { u with patch := u.patch.openSequence label }
  closeSequence u := { u with patch := u.patch.closeSequence }

end Unsteady

end Patchbay
