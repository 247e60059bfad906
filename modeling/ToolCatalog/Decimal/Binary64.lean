/-!
# Binary64 magnitudes

A finite non-negative binary64 number is a mantissa below 2^53 times a power of two with exponent
-1074 or more; the mantissa is at least 2^52 unless the exponent is the least one. Every operation
here rounds an exact quotient of natural numbers once, to the nearest such number and to the even
mantissa in a tie, and fails where the result would be too large.
-/

namespace ToolCatalog.Decimal

/-- The finite magnitude `mantissa · 2^exponent`. -/
structure Binary64 where
  mantissa : Nat
  exponent : Int
deriving DecidableEq, Repr

/-- A quotient of natural numbers rounded to the nearest one, to the even one in a tie. -/
def roundDiv (n d : Nat) : Nat :=
  let q := n / d
  let r := n % d
  if 2 * r < d then q
  else if d < 2 * r then q + 1
  else if q % 2 = 0 then q else q + 1

namespace Binary64

def minExponent : Int := -1074

def maxExponent : Int := 971

def zero : Binary64 := ⟨0, minExponent⟩

/-- The numerator of the magnitude as a fraction over `den`. -/
def num (x : Binary64) : Nat := x.mantissa * Nat.pow 2 x.exponent.toNat

/-- The power of two under the magnitude as a fraction. -/
def den (x : Binary64) : Nat := Nat.pow 2 (-x.exponent).toNat

/-- The quotient `n / (d · 2^e)` as a pair of natural numbers. -/
def scaled (n d : Nat) (e : Int) : Nat × Nat :=
  (n * Nat.pow 2 (-e).toNat, d * Nat.pow 2 e.toNat)

/-- The exponent at which `n / d` has a mantissa of 53 bits, or the least exponent. -/
def exponentOf (n d : Nat) : Int :=
  let e : Int := (Nat.log2 n : Int) - (Nat.log2 d : Int) - 53
  let (a, b) := scaled n d e
  max minExponent (if Nat.pow 2 53 ≤ a / b then e + 1 else e)

/-- The magnitude nearest to `n / d`; `none` above the greatest. -/
def ofQuotient (n d : Nat) : Option Binary64 :=
  if n = 0 then some zero
  else
    let e := exponentOf n d
    let (a, b) := scaled n d e
    let m := roundDiv a b
    -- rounding up may have given one more bit
    let (m, e) := if m = Nat.pow 2 53 then (Nat.pow 2 52, e + 1) else (m, e)
    if e ≤ maxExponent then some ⟨m, e⟩ else none

def mul (x y : Binary64) : Option Binary64 := ofQuotient (x.num * y.num) (x.den * y.den)

def div (x y : Binary64) : Option Binary64 := ofQuotient (x.num * y.den) (x.den * y.num)

/-- The magnitude nearest to a power of ten. -/
def powerOfTen (k : Nat) : Option Binary64 := ofQuotient (Nat.pow 10 k) 1

/-- The greatest power of ten that is a finite magnitude has this exponent. -/
def maxPower : Nat := 308

/-- Division by `10^k`, in steps of at most `10^308` with a rounding after each; zero stays zero. -/
def divPowerOfTen (x : Binary64) (k : Nat) : Option Binary64 :=
  if k ≤ maxPower then (powerOfTen k).bind x.div
  else if x.mantissa = 0 then some x
  else (powerOfTen maxPower).bind fun p =>
    (x.div p).bind fun y => divPowerOfTen y (k - maxPower)
termination_by k
decreasing_by simp only [maxPower] at *; omega

/-- A whole number times a power of ten: the whole number is rounded first, then its product with, or
its quotient by, the rounded power. -/
def ofScientific (n : Nat) (exponent : Int) : Option Binary64 :=
  (ofQuotient n 1).bind fun x =>
    if exponent < 0 then x.divPowerOfTen (-exponent).toNat
    else if exponent.toNat ≤ maxPower then (powerOfTen exponent.toNat).bind x.mul
    else if x.mantissa = 0 then some x
    else none

end Binary64

end ToolCatalog.Decimal
