import Patchbay.Settings.Basic

/-!
Lines of a routing lattice along one axis.

A lattice of resolution `n` cuts the way between two anchors into `n` steps and goes on past
both of them. Lines are held by their nearness to the anchor that the search heads for.
-/

namespace Patchbay.Lattice

/-- The order in which lines are tried: nearest to the target first, then the smaller. -/
def precedes (target a b : Int) : Bool :=
  (a - target).natAbs < (b - target).natAbs
    || (a - target).natAbs == (b - target).natAbs && decide (a < b)

def insertLine (target c : Int) : List Int → List Int
  | [] => [c]
  | d :: rest =>
    if c = d then d :: rest
    else if precedes target c d then c :: d :: rest
    else d :: insertLine target c rest

def steps (resolution pad : Nat) : List Int :=
  (List.range (resolution + 2 * pad + 1)).map fun (k : Nat) => (k : Int) - (pad : Int)

/-- Lines evenly spaced over the way, or a least step apart where the way is too short. -/
def spacedLines (source target : Int) (resolution : Nat) (settings : RoutingSettings) : List Int :=
  let span := target - source
  let least := max settings.minLatticeStep 1
  let numbers := steps resolution settings.latticePadding.toNat
  if (span.tdiv resolution).natAbs < least then
    numbers.map fun i => source + i * (if span < 0 then -least else least)
  else
    numbers.map fun i => source + (i * span).tdiv resolution

def lines (source target : Int) (resolution : Nat) (settings : RoutingSettings) : List Int :=
  (target :: source :: spacedLines source target resolution settings).foldr (insertLine target) []

theorem mem_insertLine {t c a : Int} {ls : List Int} : a ∈ insertLine t c ls ↔ a = c ∨ a ∈ ls := by
  induction ls with
  | nil => simp [insertLine]
  | cons d rest ih =>
    simp only [insertLine]
    split
    case isTrue h => simp [h]
    case isFalse =>
      split
      case isTrue => simp
      case isFalse => simp only [List.mem_cons, ih]; exact or_left_comm

theorem mem_foldr_insertLine {t a : Int} {ls : List Int} :
    a ∈ ls.foldr (insertLine t) [] ↔ a ∈ ls := by
  induction ls with
  | nil => simp
  | cons c rest ih => simp only [List.foldr_cons, mem_insertLine, ih, List.mem_cons]

theorem mem_lines {s t a : Int} {n : Nat} {r : RoutingSettings} :
    a ∈ lines s t n r ↔ a = t ∨ a = s ∨ a ∈ spacedLines s t n r := by
  simp only [lines, mem_foldr_insertLine, List.mem_cons]

end Patchbay.Lattice
