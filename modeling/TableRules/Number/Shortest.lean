import TableRules.Number.Double

/-!
# Decimal digits of a double

Two ways to choose decimal digits for a magnitude:

* `Magnitude.shortest`: the fewest digits that read back as the same double and, of those, the
  nearest to it. The search goes through the grids `10 ^ k` from the leading digit downwards; on
  each it looks at the two neighbours of the value and stops at the first grid where one of them
  lies in the interval of reals that round to the value.
* `Magnitude.rounded`: a fixed number of digits, correctly rounded.

A choice is a `DecimalDigits`: a coefficient and a power of ten.
-/

namespace TableRules

/-- The number `coefficient * 10 ^ power`. -/
structure DecimalDigits where
  coefficient : Nat
  power : Int
  deriving DecidableEq, Repr

namespace DecimalDigits

/-- How many digits a positive number has. -/
def countDigits (n : Nat) : Nat := (Nat.toDigits 10 n).length

/-- Removes up to `fuel` factors of ten from the coefficient. -/
def stripZeros : Nat → DecimalDigits → DecimalDigits
  | 0, d => d
  | fuel + 1, d =>
    if d.coefficient ≠ 0 ∧ d.coefficient % 10 = 0 then
      stripZeros fuel ⟨d.coefficient / 10, d.power + 1⟩
    else d

end DecimalDigits

namespace Magnitude

/-- The spacing of doubles at a magnitude is two to this power, in units. -/
def exponent (m : Magnitude) : Nat := m.units.log2 - 52

/-- The significant bits of a magnitude. -/
def significand (m : Magnitude) : Nat := m.units / twoTo m.exponent

/-- The power of ten of the leading decimal digit of a non-zero magnitude. -/
def leadingPower (m : Magnitude) : Int :=
  (DecimalDigits.countDigits (m.units * tenTo 400 / unitScale) : Int) - 401

/-- The distance to the lower end of the rounding interval, in quarters of a unit. Below a power
of two the doubles are half as far apart. -/
def lowerQuarters (m : Magnitude) : Nat :=
  if m.significand = twoTo 52 ∧ 0 < m.exponent then twoTo m.exponent else 2 * twoTo m.exponent

/-- The distance to the upper end of the rounding interval, in quarters of a unit. -/
def upperQuarters (m : Magnitude) : Nat := 2 * twoTo m.exponent

/-- Whether the point `c * 10 ^ k` rounds to the magnitude. The ends of the interval do so when the
significand is even. -/
def rounds (m : Magnitude) (c : Nat) (k : Int) : Bool :=
  let point := c * tenTo k.toNat * (4 * unitScale)
  let scale := tenTo (-k).toNat
  let low := (4 * m.units - m.lowerQuarters) * scale
  let high := (4 * m.units + m.upperQuarters) * scale
  if m.significand % 2 = 0 then low ≤ point && point ≤ high else low < point && point < high

/-- The largest multiple of `10 ^ k` that is not above the magnitude. -/
def below (m : Magnitude) (k : Int) : Nat :=
  m.units * tenTo (-k).toNat / (tenTo k.toNat * unitScale)

/-- The neighbour on the grid `10 ^ k` that rounds to the magnitude, the nearer of two. -/
def neighbour? (m : Magnitude) (k : Int) : Option Nat :=
  let c := m.below k
  match m.rounds c k, m.rounds (c + 1) k with
  | true, true =>
    let twice := 2 * m.units * tenTo (-k).toNat
    let middle := (2 * c + 1) * (tenTo k.toNat * unitScale)
    if twice < middle then some c
    else if middle < twice then some (c + 1)
    else some (if c % 2 = 0 then c else c + 1)
  | true, false => some c
  | false, true => some (c + 1)
  | false, false => none

/-- The fewest decimal digits that read back as a non-zero magnitude. -/
def shortest (m : Magnitude) : DecimalDigits :=
  let top := m.leadingPower
  let grids := (List.range 17).map fun (i : Nat) => top - (i : Int)
  let found := grids.findSome? fun k => (m.neighbour? k).map fun c => DecimalDigits.mk c k
  DecimalDigits.stripZeros 20 (found.getD ⟨m.below (top - 16), top - 16⟩)

/-- The magnitude in a fixed number of decimal digits, correctly rounded; zero has the digits
zero. -/
def rounded (m : Magnitude) (digits : Nat) : DecimalDigits :=
  if m.units = 0 then ⟨0, 0⟩
  else
    let k := m.leadingPower - (digits : Int) + 1
    let c := roundHalfEven (m.units * tenTo (-k).toNat) (tenTo k.toNat * unitScale)
    if c = tenTo digits then ⟨c / 10, k + 1⟩ else ⟨c, k⟩

end Magnitude

end TableRules
