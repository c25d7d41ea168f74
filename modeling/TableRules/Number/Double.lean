/-!
# Double-precision numbers

A finite double is a sign and a magnitude, and a magnitude is a whole number of **units**, the
unit being `2 ^ -1074`, the smallest positive double. Not every number of units is a double: at
most 53 of its bits may matter (`Magnitude.fits`), and it stays below `2 ^ 1024` (`bounded`).

Working in units makes every operation exact integer arithmetic followed by one rounding:

* `roundUnits n d` is the double nearest to `n / d` units, ties going to the even neighbour;
  its main property, `roundUnits_fits`, says that the result has at most 53 significant bits;
* comparison (`Double.lt`) is the order of integers;
* `Double.distance` is the rounded absolute difference.

Zero has two signs, which compare as equal; infinities lie beyond every finite number; a number
that is not comparable (`nan`) satisfies no comparison.
-/

namespace TableRules

/-! ### Powers -/

/-- A power of two. -/
def twoTo (n : Nat) : Nat := Nat.pow 2 n

/-- A power of ten. -/
def tenTo (n : Nat) : Nat := Nat.pow 10 n

theorem twoTo_pos (n : Nat) : 0 < twoTo n := Nat.two_pow_pos n

theorem twoTo_add (m n : Nat) : twoTo (m + n) = twoTo m * twoTo n := Nat.pow_add 2 m n

theorem twoTo_le_twoTo {m n : Nat} (h : m ≤ n) : twoTo m ≤ twoTo n :=
  Nat.pow_le_pow_right (by decide) h

theorem lt_twoTo_log2 (n : Nat) : n < twoTo (n.log2 + 1) := Nat.lt_log2_self

/-! ### Units -/

/-- The power of two that one unit divides one into. -/
def unitScale : Nat := twoTo 1074

/-- The number of units that every finite double stays below. -/
def unitLimit : Nat := twoTo (1024 + 1074)

theorem unitLimit_pos : 0 < unitLimit := twoTo_pos (1024 + 1074)

/-- The quotient `n / d` rounded to the nearest whole number, a tie to the even one. -/
def roundHalfEven (n d : Nat) : Nat :=
  let q := n / d
  let r := n % d
  if 2 * r < d then q
  else if d < 2 * r then q + 1
  else if q % 2 = 0 then q else q + 1

theorem roundHalfEven_le_succ (n d : Nat) : roundHalfEven n d ≤ n / d + 1 := by
  simp only [roundHalfEven]
  split
  · omega
  · split
    · omega
    · split <;> omega

/-- The magnitude of a finite double, in units. -/
structure Magnitude where
  units : Nat
  fits : ∃ m k, m ≤ twoTo 53 ∧ units = m * twoTo k
  bounded : units < unitLimit
  deriving DecidableEq

/-- A double-precision number. -/
inductive Double
  | finite (negative : Bool) (magnitude : Magnitude)
  | infinite (negative : Bool)
  | nan
  deriving DecidableEq

/-! ### Rounding -/

/-- How many low bits a double near `n / d` units cannot hold. -/
def spacing (n d : Nat) : Nat := (n / d).log2 - 52

/-- The number of units nearest to `n / d` among those that fit a double of unbounded exponent. -/
def roundUnits (n d : Nat) : Nat :=
  roundHalfEven n (d * twoTo (spacing n d)) * twoTo (spacing n d)

theorem roundUnits_fits (n d : Nat) : ∃ m k, m ≤ twoTo 53 ∧ roundUnits n d = m * twoTo k := by
  refine ⟨_, _, ?_, rfl⟩
  have hlt : n / (d * twoTo (spacing n d)) < twoTo 53 := by
    rw [← Nat.div_div_eq_div_mul, Nat.div_lt_iff_lt_mul (twoTo_pos _), ← twoTo_add]
    refine Nat.lt_of_lt_of_le (lt_twoTo_log2 (n / d)) (twoTo_le_twoTo ?_)
    simp only [spacing]
    omega
  have := roundHalfEven_le_succ n (d * twoTo (spacing n d))
  omega

namespace Double

/-- The zero of either sign. -/
def zero (negative : Bool) : Double := .finite negative ⟨0, ⟨0, 0, by omega, rfl⟩, unitLimit_pos⟩

/-- The double nearest to `n / d` units with a given sign. -/
def ofUnits (negative : Bool) (n d : Nat) : Double :=
  if h : roundUnits n d < unitLimit then .finite negative ⟨roundUnits n d, roundUnits_fits n d, h⟩
  else .infinite negative

/-- The double nearest to an integer; `none` when that is beyond the largest double. -/
def ofInt? (i : Int) : Option Double :=
  match ofUnits (decide (i < 0)) (i.natAbs * unitScale) 1 with
  | .finite s m => some (.finite s m)
  | _ => none

/-- The double nearest to `digits * 10 ^ exponent` with a given sign. Exponents far outside the
range of doubles are settled without computing the power. -/
def ofDecimal (negative : Bool) (digits : Nat) (exponent : Int) : Double :=
  if digits = 0 then zero negative
  else if 400 < exponent then .infinite negative
  else if exponent + digits.log2 < -400 then zero negative
  else if 0 ≤ exponent then ofUnits negative (digits * tenTo exponent.toNat * unitScale) 1
  else ofUnits negative (digits * unitScale) (tenTo (-exponent).toNat)

/-! ### Comparison -/

/-- Whether a number is neither infinite nor incomparable. -/
def isFinite : Double → Bool
  | .finite _ _ => true
  | _ => false

/-- A finite number in units, with its sign. -/
def signedUnits (negative : Bool) (m : Magnitude) : Int :=
  if negative then -(m.units : Int) else m.units

/-- Whether one number is less than another. -/
def lt : Double → Double → Bool
  | .finite s m, .finite t n => signedUnits s m < signedUnits t n
  | .finite _ _, .infinite t => !t
  | .infinite s, .finite _ _ => s
  | .infinite s, .infinite t => s && !t
  | .nan, _ => false
  | _, .nan => false

/-- Whether two numbers are equal as numbers; the two zeros are. -/
def eq : Double → Double → Bool
  | .finite s m, .finite t n => signedUnits s m == signedUnits t n
  | .infinite s, .infinite t => s == t
  | _, _ => false

/-- The absolute difference of two numbers, rounded. -/
def distance : Double → Double → Double
  | .finite s m, .finite t n => ofUnits false (signedUnits s m - signedUnits t n).natAbs 1
  | .infinite s, .infinite t => if s == t then .nan else .infinite false
  | .nan, _ => .nan
  | _, .nan => .nan
  | _, _ => .infinite false

/-- The sum of two numbers, rounded. -/
def add : Double → Double → Double
  | .finite s m, .finite t n =>
    let sum := signedUnits s m + signedUnits t n
    ofUnits (sum < 0) sum.natAbs 1
  | .infinite s, .infinite t => if s == t then .infinite s else .nan
  | .nan, _ => .nan
  | _, .nan => .nan
  | .infinite s, _ => .infinite s
  | _, .infinite t => .infinite t

/-- The opposite number. -/
def neg : Double → Double
  | .finite s m => .finite (!s) m
  | .infinite s => .infinite (!s)
  | .nan => .nan

/-- Whether the number is zero. -/
def isZero : Double → Bool
  | .finite _ m => m.units == 0
  | _ => false

/-- The integer a number is equal to, if it is one. -/
def toInt? : Double → Option Int
  | .finite s m =>
    if m.units % unitScale = 0 then
      let n : Int := (m.units / unitScale : Nat)
      some (if s then -n else n)
    else none
  | _ => none

/-- No finite or infinite number is less than itself, and none is less both ways. -/
theorem lt_asymm {a b : Double} (h : a.lt b = true) : b.lt a = false := by
  cases a <;> cases b <;> simp_all [lt]
  omega

theorem lt_trans {a b c : Double} (hab : a.lt b = true) (hbc : b.lt c = true) :
    a.lt c = true := by
  cases a <;> cases b <;> cases c <;> simp_all [lt]
  omega

end Double

end TableRules
