import Patchbay.Token.Base64
import Patchbay.Token.Varint
import Patchbay.Text.Blank
import Patchbay.Route.Basic

/-!
Route tokens: a plan as a line of text that a document can keep with a cable. The empty token
stands for a straight cable.
-/

namespace Patchbay

inductive TokenError where
  | base64
  | payload
  | trailingBytes
  | invalidPlan
  deriving DecidableEq, Repr

def TokenError.message : TokenError → String
  | base64 => "Path state is not valid base64"
  | payload => "Path state payload is malformed"
  | trailingBytes => "Path state has trailing bytes after the point list"
  | invalidPlan => "Path plan is not orthogonal: expected at least four axis-aligned points"

namespace Token

def pointBytes (p : Point) : List UInt8 :=
  Varint.write (Varint.fold p.x) ++ Varint.write (Varint.fold p.y)

def bytes (ps : List Point) : List UInt8 := Varint.write ps.length ++ ps.flatMap pointBytes

def encode (ps : List Point) : String := String.ofList (Base64.encode (bytes ps))

/-- A coordinate takes four bytes at most. -/
def readCoordinate (bs : List UInt8) : Option (Int × List UInt8) :=
  (Varint.read 4 bs).map fun (n, rest) => (Varint.unfold n, rest)

def readPoint (bs : List UInt8) : Option (Point × List UInt8) := do
  let (x, bs) ← readCoordinate bs
  let (y, bs) ← readCoordinate bs
  return (⟨x, y⟩, bs)

def readPoints : (count : Nat) → List UInt8 → Option (List Point × List UInt8)
  | 0, bs => some ([], bs)
  | count + 1, bs => do
    let (p, bs) ← readPoint bs
    let (ps, bs) ← readPoints count bs
    return (p :: ps, bs)

def readBytes (bs : List UInt8) : Option (List Point × List UInt8) := do
  let (count, bs) ← Varint.read 8 bs
  readPoints count bs

/-- The plan of a token; blanks around the token do not count. -/
def decode (token : String) : Except TokenError Plan :=
  match Base64.decode (Text.trim token.toList) with
  | none => .error .base64
  | some bs =>
    match readBytes bs with
    | none => .error .payload
    | some (_, _ :: _) => .error .trailingBytes
    | some (ps, []) => if Plan.isValid ps then .ok ps else .error .invalidPlan

end Token

namespace Route

def token : Route → String
  | straight => ""
  | segmented ps => Token.encode ps

/-- The route of a token, brought to its anchors. What is no token means a straight cable. -/
def ofToken (token : String) (start stop : Point) : Route :=
  if token = "" then straight
  else match Token.decode token with
    | .ok ps => (segmented ps).reanchor start stop
    | .error _ => straight

end Route

end Patchbay
