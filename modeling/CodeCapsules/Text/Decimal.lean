/-!
Contract: decimal fractions as far as their size matters.

Owns:
- the doubles next to natural numbers;
- which decimals are too large for a double, if they are rounded once;
- which are, if the significand and the power of ten are rounded first and then
  their product.
-/

namespace CodeCapsules.Decimal

/-- The first power of two that is too large for a double. -/
def doubleLimit : Nat := Nat.pow 2 1024

/-- The number with 53 significant bits that is nearest to a natural number, and
of two such numbers the one whose last bit is zero. -/
def nearest (value : Nat) : Nat :=
  let unit := Nat.pow 2 (Nat.log2 value + 1 - 53)
  let whole := value / unit
  let rest := value % unit
  let goesUp := unit < 2 * rest ∨ (2 * rest = unit ∧ whole % 2 = 1)
  (if goesUp then whole + 1 else whole) * unit

/-- Whether `significand` times a power of ten is too large for a double: it
lies at or beyond the middle between the largest double and the next power of
two. -/
def overflowsDouble (significand : Nat) (exponent : Int) : Bool :=
  if significand = 0 then false
  else
    let magnitude := ((Nat.toDigits 10 significand).length : Int) + exponent
    if magnitude > 310 then true
    else if magnitude < 300 then false
    else
      let limit := doubleLimit - Nat.pow 2 970
      if 0 ≤ exponent then limit ≤ significand * Nat.pow 10 exponent.toNat
      else limit * Nat.pow 10 (-exponent).toNat ≤ significand

/-- The largest exponent of a power of ten that a double comes near to. -/
def largestExponent : Nat := 308

/-- Whether the product of the doubles next to `significand` and to a power of
ten is too large for a double. -/
def overflowsProduct (significand : Nat) (exponent : Int) : Bool :=
  if significand = 0 ∨ exponent < 0 then false
  else if largestExponent < exponent then true
  else doubleLimit ≤ nearest (nearest significand * nearest (Nat.pow 10 exponent.toNat))

end CodeCapsules.Decimal
