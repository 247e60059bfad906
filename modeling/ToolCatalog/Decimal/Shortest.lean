import ToolCatalog.Decimal.Binary64

/-!
# The shortest decimal of a magnitude

A decimal stands for a magnitude when it lies in the interval of numbers that round to it; the ends
of the interval belong to it when the mantissa is even. The search goes through the grids of
multiples of powers of ten from coarse to fine and stops at the first grid on which one of the two
neighbours of the magnitude lies in the interval. That decimal has the fewest digits.
-/

namespace ToolCatalog.Decimal

/-- The decimal `digits · 10^exponent`. -/
structure Scientific where
  digits : Nat
  exponent : Int
deriving DecidableEq, Repr

namespace Binary64

/-- `c · 10^j` and `x · 2^q` brought to whole numbers by one common factor. -/
def common (c : Nat) (j : Int) (x : Nat) (q : Int) : Nat × Nat :=
  (c * Nat.pow 10 j.toNat * Nat.pow 2 (-q).toNat, x * Nat.pow 2 q.toNat * Nat.pow 10 (-j).toNat)

/-- The decimal `c · 10^j` lies in the interval of numbers that round to `x`. -/
def standsFor (x : Binary64) (c : Nat) (j : Int) : Bool :=
  let q := x.exponent - 2
  -- in quarters of the last place: below a power of two the next magnitude is only half as far away
  let below := if x.mantissa = Nat.pow 2 52 && minExponent < x.exponent then 1 else 2
  let (lo, a) := common c j (4 * x.mantissa - below) q
  let (hi, b) := common c j (4 * x.mantissa + 2) q
  -- a tie goes to the even mantissa, so the ends belong to the interval exactly then
  if x.mantissa % 2 = 0 then a ≤ lo && hi ≤ b else a < lo && hi < b

/-- Of the two neighbours of `x` on the grid of multiples of `10^j`, the one that stands for `x`; of
two the nearer, and the even one in a tie. -/
def neighbour? (x : Binary64) (j : Int) : Option Scientific :=
  let (unit, v) := common 1 j (4 * x.mantissa) (x.exponent - 2)
  let c := v / unit
  match x.standsFor c j, x.standsFor (c + 1) j with
  | true, false => some ⟨c, j⟩
  | false, true => some ⟨c + 1, j⟩
  | false, false => none
  | true, true =>
    let r := v % unit
    some ⟨if 2 * r < unit || 2 * r = unit && c % 2 = 0 then c else c + 1, j⟩

/-- The grids to search: from above the leading digit down to below the seventeenth. -/
def grids (x : Binary64) : List Int :=
  let top := ((Nat.log2 x.mantissa : Int) + x.exponent) * 30103 / 100000 + 2
  (List.range 24).map fun (i : Nat) => top - (i : Int)

/-- The decimal with the fewest digits that stands for `x`. -/
def shortest (x : Binary64) : Scientific :=
  if x.mantissa = 0 then ⟨0, 0⟩
  else (x.grids.findSome? x.neighbour?).getD ⟨0, 0⟩

end Binary64

end ToolCatalog.Decimal
