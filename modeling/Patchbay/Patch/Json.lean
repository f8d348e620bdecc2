import Patchbay.Patch.Edit
import Patchbay.Json.Record
import Patchbay.Json.Printer

/-!
Patches as JSON text. The history is not part of it.
-/

namespace Patchbay

open Json (required optional asBool? asInt32? asNat64? asString? asList?)

def Rect.ofJson? (j : Json) : Option Rect := do
  match ← j.fields? ["x", "y", "width", "height"] with
  | [x, y, width, height] =>
    return {
      x := ← required asInt32? x
      y := ← required asInt32? y
      width := ← required asInt32? width
      height := ← required asInt32? height }
  | _ => none

def Rect.toJson (r : Rect) : Json :=
  .record [("x", .ofInt r.x), ("y", .ofInt r.y), ("width", .ofInt r.width),
    ("height", .ofInt r.height)]

def Point.toJson (p : Point) : Json := .record [("x", .ofInt p.x), ("y", .ofInt p.y)]

def Node.ofJson? (j : Json) : Option Node := do
  match ← j.fields? ["text", "bounds", "inlets", "outlets"] with
  | [text, bounds, inlets, outlets] =>
    return {
      text := ← required asString? text
      bounds := ← required Rect.ofJson? bounds
      inlets := ← optional (asList? asBool?) [] inlets
      outlets := ← optional (asList? asBool?) [] outlets }
  | _ => none

def Node.toJson (n : Node) : Json :=
  .record [("text", .ofString n.text), ("bounds", n.bounds.toJson),
    ("inlets", .ofList .bool n.inlets), ("outlets", .ofList .bool n.outlets)]

def Wire.ofJson? (j : Json) : Option Wire := do
  match ← j.fields? ["handle", "outlet_owner", "outlet", "inlet_owner", "inlet", "path_state"] with
  | [handle, outletOwner, outlet, inletOwner, inlet, token] =>
    let handle ← required asNat64? handle
    let outletOwner ← required asNat64? outletOwner
    let outlet ← required asNat64? outlet
    let inletOwner ← required asNat64? inletOwner
    let inlet ← required asNat64? inlet
    let token ← optional asString? "" token
    return ⟨handle, ⟨outletOwner, outlet, inletOwner, inlet⟩, token⟩
  | _ => none

def Wire.toJson (w : Wire) : Json :=
  .record [("handle", .ofNat w.handle), ("outlet_owner", .ofNat w.ends.outletOwner),
    ("outlet", .ofNat w.ends.outlet), ("inlet_owner", .ofNat w.ends.inletOwner),
    ("inlet", .ofNat w.ends.inlet), ("path_state", .ofString w.token)]

namespace Contents

/-- A handle as the name of a member: plain digits below `2 ^ 64`. -/
def handle? (name : Json.Text) : Option Nat := do
  let n ← Json.natOfDigits? (← name.plain?)
  if n < 18446744073709551616 then return n else none

/-- Puts a node under a handle; one that is there is replaced where it stands. -/
def putNode (handle : Nat) (n : Node) : Keyed Node → Keyed Node
  | [] => [(handle, n)]
  | (h, m) :: rest =>
    if h = handle then (h, n) :: rest else (h, m) :: putNode handle n rest

def putMembers : List (Json.Text × Json) → Keyed Node → Option (Keyed Node)
  | [], nodes => some nodes
  | (k, v) :: ms, nodes => do
    let handle ← handle? k
    let n ← Node.ofJson? v
    putMembers ms (putNode handle n nodes)

def nodes? : Json → Option (Keyed Node)
  | .object ms => putMembers ms []
  | _ => none

end Contents

namespace Patch

/-- A patch from its value. The next handle has to fit 64 bits too, so a patch that uses the last
handle is refused. -/
def ofJson? (j : Json) : Option Patch := do
  match ← j.fields? ["objects", "connections", "next_id"] with
  | [nodes, wires, next] =>
    let nodes ← required Contents.nodes? nodes
    let wires ← optional (asList? Wire.ofJson?) [] wires
    let next ← optional asNat64? 0 next
    let contents : Contents := ⟨nodes, wires⟩
    let free := contents.highest?.getD 0 + 1
    if free < 18446744073709551616 then
      return { toContents := contents, next := max next free }
    else none
  | _ => none

def toJson (p : Patch) : Json :=
  .record [
    ("objects", .object (p.nodes.map fun (h, n) =>
      ((Nat.toDigits 10 h).map .char, n.toJson))),
    ("connections", .ofList Wire.toJson p.wires),
    ("next_id", .ofNat p.next)]

def parse? (text : String) : Option Patch := (Json.parse? text).bind ofJson?

def print (p : Patch) : String := p.toJson.pretty

end Patch

end Patchbay
