import Patchbay.Json.Basic

/-!
The written form of a JSON value: every element and member on a line of its own, two blanks
deeper than what holds it.
-/

namespace Patchbay.Json

def hexDigit (n : Nat) : Char := Nat.digitChar (n % 16)

/-- The escape of a unit: the short one where there is one, else four lower-case digits. -/
def escape (n : Nat) : List Char :=
  match n with
  | 0x22 => ['\\', '"']
  | 0x5c => ['\\', '\\']
  | 0x08 => ['\\', 'b']
  | 0x09 => ['\\', 't']
  | 0x0a => ['\\', 'n']
  | 0x0c => ['\\', 'f']
  | 0x0d => ['\\', 'r']
  | _ => ['\\', 'u', hexDigit (n / 4096), hexDigit (n / 256), hexDigit (n / 16), hexDigit n]

def Piece.print : Piece → List Char
  | char c => [c]
  | unit n => escape n

def Text.print (t : Text) : List Char := '"' :: (t.flatMap Piece.print ++ ['"'])

def newline (depth : Nat) : List Char := '\n' :: List.replicate (2 * depth) ' '

mutual

def print (depth : Nat) : Json → List Char
  | null => ['n', 'u', 'l', 'l']
  | bool true => ['t', 'r', 'u', 'e']
  | bool false => ['f', 'a', 'l', 's', 'e']
  | number literal => literal
  | text t => t.print
  | array [] => ['[', ']']
  | array (x :: xs) =>
    '[' :: (newline (depth + 1) ++ (print (depth + 1) x
      ++ (printElements (depth + 1) xs ++ (newline depth ++ [']']))))
  | object [] => ['{', '}']
  | object ((k, v) :: ms) =>
    '{' :: (newline (depth + 1) ++ (k.print ++ (':' :: ' ' :: (print (depth + 1) v
      ++ (printMembers (depth + 1) ms ++ (newline depth ++ ['}']))))))

def printElements (depth : Nat) : List Json → List Char
  | [] => []
  | x :: xs => ',' :: (newline depth ++ (print depth x ++ printElements depth xs))

def printMembers (depth : Nat) : List (Text × Json) → List Char
  | [] => []
  | (k, v) :: ms =>
    ',' :: (newline depth ++ (k.print ++ (':' :: ' ' :: (print depth v ++ printMembers depth ms))))

end

def pretty (j : Json) : String := String.ofList (print 0 j)

end Patchbay.Json
