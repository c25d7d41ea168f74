import Mathlib.Tactic.DefEqTransformations
import TableRules.Proofs.Number.Rounding

/-!
# Integers beyond the doubles

The largest finite double is `2 ^ 1024 - 2 ^ 971`; its neighbour above would be `2 ^ 1024`. An
integer between the two is rounded to the nearer one, and the middle `2 ^ 1024 - 2 ^ 970` to
`2 ^ 1024`, which is the even one. So an integer has no double exactly from the middle on
(`Double.ofInt?_eq_none_iff`).
-/

namespace TableRules

/-- The magnitude of an integer is rounded to `2 ^ 1024` or more: it reaches at least the middle
between the largest double and `2 ^ 1024`. -/
def ExceedsDoubles (n : Int) : Prop := 2 ^ 1024 ≤ n.natAbs + 2 ^ 970

/-- A quotient is rounded below an even bound exactly if it lies below the middle between the bound
and its predecessor. -/
theorem roundHalfEven_lt_iff {n d b : Nat} (hd : 0 < d) (hb : b % 2 = 0) :
    roundHalfEven n d < b ↔ 2 * n + d < 2 * (b * d) := by
  have hn : d * (n / d) + n % d = n := Nat.div_add_mod n d
  have hr : n % d < d := Nat.mod_lt n hd
  have hle : roundHalfEven n d ≤ n / d + 1 := roundHalfEven_le_succ n d
  have hge : n / d ≤ roundHalfEven n d := by
    simp only [roundHalfEven]
    split_ifs <;> omega
  rcases Nat.lt_trichotomy (n / d + 1) b with hlt | rfl | hgt
  · have hmul : (n / d + 2) * d ≤ b * d := Nat.mul_le_mul_right d hlt
    exact iff_of_true (by omega) (by linarith)
  · -- the quotient is odd, so a tie is rounded up to the bound
    have hodd : n / d % 2 ≠ 0 := by omega
    have hround : roundHalfEven n d < n / d + 1 ↔ 2 * (n % d) < d := by
      simp only [roundHalfEven, if_neg hodd]
      split_ifs <;> omega
    have hmiddle : 2 * n + d < 2 * ((n / d + 1) * d) ↔ 2 * (n % d) < d := by
      constructor <;> intro h <;> linarith
    exact hround.trans hmiddle.symm
  · have hmul : b * d ≤ n / d * d := Nat.mul_le_mul_right d (by omega)
    have hrest : 0 ≤ n % d := Nat.zero_le _
    exact iff_of_false (by omega) (by linarith)

/-! ### Rounding to units -/

section Units

variable {n k : Nat}

/-- A number of units has at most 53 bits more than the doubles near it leave out. -/
private theorem lt_of_spacing (n : Nat) : n < 2 ^ (53 + spacing n 1) := by
  have hspacing : spacing n 1 = n.log2 - 52 := by rw [spacing, Nat.div_one]
  exact (lt_twoTo_log2 n).trans_le (twoTo_le_twoTo (by omega))

/-- Where bits are left out, the number of units has exactly 53 bits more. -/
private theorem le_of_spacing (h : 0 < spacing n 1) : 2 ^ (52 + spacing n 1) ≤ n := by
  have hspacing : spacing n 1 = n.log2 - 52 := by rw [spacing, Nat.div_one]
  have hlog : 52 + spacing n 1 = n.log2 := by omega
  rw [hlog]
  refine Nat.log2_self_le ?_
  rintro rfl
  rw [Nat.log2_zero] at hlog
  omega

private theorem roundUnits_one (n : Nat) :
    roundUnits n 1 = roundHalfEven n (2 ^ spacing n 1) * 2 ^ spacing n 1 := by
  rw [roundUnits, Nat.one_mul, twoTo_eq]

/-- Rounding does not reach beyond the power of two above. -/
private theorem roundUnits_le (n : Nat) : roundUnits n 1 ≤ 2 ^ (53 + spacing n 1) := by
  have hdiv : n / 2 ^ spacing n 1 < 2 ^ 53 := by
    rw [Nat.div_lt_iff_lt_mul (Nat.two_pow_pos _), ← pow_add]
    exact lt_of_spacing n
  rw [roundUnits_one, pow_add]
  exact Nat.mul_le_mul_right _ ((roundHalfEven_le_succ n _).trans hdiv)

/-- Rounding does not reach below the power of two below. -/
private theorem le_roundUnits (h : 0 < spacing n 1) : 2 ^ (52 + spacing n 1) ≤ roundUnits n 1 := by
  have hquotient : ¬ roundHalfEven n (2 ^ spacing n 1) < 2 ^ 52 := by
    have hn := le_of_spacing h
    have hpos : 0 < 2 ^ spacing n 1 := Nat.two_pow_pos _
    rw [roundHalfEven_lt_iff hpos (by decide), ← pow_add]
    omega
  rw [roundUnits_one, pow_add]
  exact Nat.mul_le_mul_right _ (Nat.not_lt.mp hquotient)

/-- **A number of units is rounded below a power of two** exactly if it lies below the middle
between this power and the double before it. -/
theorem roundUnits_lt_iff : roundUnits n 1 < 2 ^ (53 + k) ↔ 2 * n + 2 ^ k < 2 ^ (54 + k) := by
  have hk : 0 < 2 ^ k := Nat.two_pow_pos k
  have hdouble : 2 ^ (54 + k) = 2 * 2 ^ (53 + k) := by rw [← pow_succ']; congr 1; omega
  rcases Nat.lt_trichotomy (spacing n 1) k with hlt | heq | hgt
  · -- far below, where the doubles stand closer together
    have hpow : 2 * 2 ^ (53 + spacing n 1) ≤ 2 ^ (53 + k) := by
      rw [← pow_succ']
      exact Nat.pow_le_pow_right (by decide) (by omega)
    have hpow' : 2 ^ k ≤ 2 ^ (53 + k) := Nat.pow_le_pow_right (by decide) (by omega)
    have hn := lt_of_spacing n
    have hround := roundUnits_le n
    exact iff_of_true (by omega) (by omega)
  · -- the doubles up to the power of two are the multiples of `2 ^ k`
    rw [roundUnits_one, heq, pow_add, Nat.mul_lt_mul_right hk,
      roundHalfEven_lt_iff hk (by decide), hdouble, pow_add]
  · -- far above, where the doubles are multiples of a larger power of two
    have hpow : 2 ^ (53 + k) ≤ 2 ^ (52 + spacing n 1) :=
      Nat.pow_le_pow_right (by decide) (by omega)
    have hn := le_of_spacing (Nat.zero_lt_of_lt hgt)
    have hround := le_roundUnits (Nat.zero_lt_of_lt hgt)
    exact iff_of_false (by omega) (by omega)

end Units

/-! ### Integers -/

/-- The magnitude of an integer in units is rounded to the limit of the doubles or beyond exactly if
the integer reaches the middle before `2 ^ 1024`. -/
theorem unitLimit_le_roundUnits_iff {n : Int} :
    unitLimit ≤ roundUnits (n.natAbs * unitScale) 1 ↔ ExceedsDoubles n := by
  have hlimit : unitLimit = twoTo (53 + (970 + 1074 + 1)) := congrArg twoTo rfl
  have htop : 54 + (970 + 1074 + 1) = 1024 + 1074 + 1 := rfl
  have hscaled : ∀ k, 2 ^ (k + 1074 + 1) = 2 * (2 ^ k * unitScale) := by
    intro k
    rw [unitScale, twoTo_eq, pow_succ', pow_add]
  have hscale : 0 < unitScale := twoTo_pos 1074
  rw [← Nat.not_lt, hlimit, twoTo_eq, roundUnits_lt_iff, htop, hscaled, hscaled, ← Nat.mul_add,
    ← Nat.add_mul, Nat.mul_lt_mul_left (by decide), Nat.mul_lt_mul_right hscale, Nat.not_lt,
    ExceedsDoubles]

namespace Double

/-- A number of units has a finite double exactly if it is rounded to less than the limit. -/
private theorem isFinite_ofUnits_iff {negative : Bool} {units : Nat} :
    (ofUnits negative units 1).isFinite = true ↔ roundUnits units 1 < unitLimit := by
  by_cases h : roundUnits units 1 < unitLimit
  · rw [ofUnits, dif_pos h]
    exact iff_of_true rfl h
  · rw [ofUnits, dif_neg h]
    exact iff_of_false Bool.false_ne_true h

private theorem ofInt?_eq (n : Int) :
    ofInt? n = if (ofUnits (decide (n < 0)) (n.natAbs * unitScale) 1).isFinite = true then
      some (ofUnits (decide (n < 0)) (n.natAbs * unitScale) 1) else none := by
  -- the definition is opened as a function: once applied, the number of units would be computed
  obtain ⟨f, hf⟩ : ∃ f, f = ofInt? := ⟨_, rfl⟩
  rw [← hf]
  delta ofInt? at hf
  subst hf
  beta_reduce
  cases ofUnits (decide (n < 0)) (n.natAbs * unitScale) 1 <;> simp [isFinite]

/-- **An integer has no double exactly if it exceeds the doubles.** -/
theorem ofInt?_eq_none_iff {n : Int} : ofInt? n = none ↔ ExceedsDoubles n := by
  rw [ofInt?_eq, ite_eq_right_iff, imp_iff_not (Option.some_ne_none _), isFinite_ofUnits_iff,
    Nat.not_lt, unitLimit_le_roundUnits_iff]

/-- An integer other than zero has the double that its digits are read as. -/
theorem ofInt?_eq_some_iff {n : Int} {x : Double} (hn : n ≠ 0) :
    ofInt? n = some x ↔ ofDecimal (decide (n < 0)) n.natAbs 0 = x ∧ x.isFinite = true := by
  have hdigits : ofDecimal (decide (n < 0)) n.natAbs 0
      = ofUnits (decide (n < 0)) (n.natAbs * unitScale) 1 := by
    rw [ofDecimal, if_neg (Int.natAbs_ne_zero.mpr hn), if_neg (by decide), if_neg (by omega),
      if_pos (le_refl 0), Int.toNat_zero, tenTo_eq, pow_zero, mul_one]
  rw [ofInt?_eq, hdigits, Option.ite_none_right_eq_some, Option.some.injEq, and_comm]
  exact and_congr_right fun h => by rw [h]

theorem ofInt?_zero : ofInt? 0 = some (zero false) := by decide +kernel

end Double

end TableRules
