import Mathlib.Algebra.Order.Field.Power
import Mathlib.Algebra.Order.Field.Rat
import Mathlib.Tactic.FieldSimp
import Mathlib.Tactic.Linarith
import Mathlib.Tactic.NormNum
import Mathlib.Tactic.Positivity
import Mathlib.Tactic.Ring
import TableRules.Number.Shortest

/-!
# Numbers that round to a double

Every magnitude is rounded to by an interval of numbers around it, whose ends are half way to the
neighbouring doubles (`Magnitude.Absorbs`); below a power of two the neighbour is nearer. The ends
belong to the interval when the significand is even, which is how ties are broken.

* `roundUnits_eq`: a number of the interval is rounded to the magnitude, also where it lies below
  the power of two that the magnitude is and so among doubles that stand closer together.
* `Double.ofDecimal_eq`: a decimal number of the interval is read as the double; the bounds on
  exponents that settle numbers far outside the range of doubles never apply to it.

Numbers are rationals in units, so one is `2 ^ 1074`.
-/

namespace TableRules

theorem twoTo_eq (n : Nat) : twoTo n = 2 ^ n := rfl

theorem tenTo_eq (n : Nat) : tenTo n = 10 ^ n := rfl

theorem twoTo_le_tenTo (n : Nat) : twoTo (3 * n) ≤ tenTo n := by
  rw [twoTo_eq, tenTo_eq, pow_mul]
  exact Nat.pow_le_pow_left (by decide) n

private theorem two_pow_le_ten_pow (n : Nat) : (2 : ℚ) ^ (3 * n) ≤ 10 ^ n := by
  exact_mod_cast twoTo_le_tenTo n

/-! ### Rounding to whole numbers -/

private theorem roundHalfEven_eq_of_le {n d m : Nat} (hd : 0 < d)
    (hlo : 2 * (m * d) ≤ 2 * n + d) (hhi : 2 * n ≤ 2 * (m * d) + d)
    (htie : m % 2 = 0 ∨ 2 * (m * d) < 2 * n + d ∧ 2 * n < 2 * (m * d) + d) :
    roundHalfEven n d = m := by
  have hdiv : n / d * d + n % d = n := Nat.div_add_mod' n d
  have hr := Nat.mod_lt n hd
  have hle : n / d ≤ m := by
    rw [← Nat.lt_succ_iff, Nat.div_lt_iff_lt_mul hd, Nat.succ_mul]
    omega
  have hge : m ≤ n / d + 1 := by
    rw [← Nat.sub_le_iff_le_add, Nat.le_div_iff_mul_le hd, Nat.sub_mul]
    omega
  rw [roundHalfEven]
  rcases Nat.lt_or_ge (n / d) m with hlt | hle'
  · obtain rfl : m = n / d + 1 := by omega
    rw [Nat.add_mul, Nat.one_mul] at hlo hhi htie
    split_ifs <;> omega
  · obtain rfl : m = n / d := by omega
    split_ifs <;> omega

/-- The whole number within half of a quotient is what the quotient is rounded to; at a distance of
exactly a half, when it is even. -/
theorem roundHalfEven_eq {n d m : Nat} (hd : 0 < d)
    (h : |(n : ℚ) / d - m| < 1 / 2 ∨ |(n : ℚ) / d - m| ≤ 1 / 2 ∧ m % 2 = 0) :
    roundHalfEven n d = m := by
  have hd' : (0 : ℚ) < d := by exact_mod_cast hd
  have hdist : (n : ℚ) / d - m = (2 * n - 2 * (m * d)) / (2 * d) := by field_simp
  rw [hdist, abs_div, abs_of_pos (show (0 : ℚ) < 2 * d by positivity),
    div_lt_iff₀ (by positivity), div_le_iff₀ (by positivity), abs_lt, abs_le] at h
  have hhalf : (1 / 2 : ℚ) * (2 * d) = d := by ring
  rw [hhalf] at h
  rcases h with ⟨hlo, hhi⟩ | ⟨⟨hlo, hhi⟩, heven⟩
  · have hlo' : 2 * (m * d) < 2 * n + d := by
      have : (2 : ℚ) * (m * d) < 2 * n + d := by linarith
      exact_mod_cast this
    have hhi' : 2 * n < 2 * (m * d) + d := by
      have : (2 : ℚ) * n < 2 * (m * d) + d := by linarith
      exact_mod_cast this
    exact roundHalfEven_eq_of_le hd hlo'.le hhi'.le (.inr ⟨hlo', hhi'⟩)
  · have hlo' : 2 * (m * d) ≤ 2 * n + d := by
      have : (2 : ℚ) * (m * d) ≤ 2 * n + d := by linarith
      exact_mod_cast this
    have hhi' : 2 * n ≤ 2 * (m * d) + d := by
      have : (2 : ℚ) * n ≤ 2 * (m * d) + d := by linarith
      exact_mod_cast this
    exact roundHalfEven_eq_of_le hd hlo' hhi' (.inl heven)

/-- What a quotient is rounded to is within half of it. -/
theorem roundHalfEven_near (n : Nat) {d : Nat} (hd : 0 < d) :
    |(roundHalfEven n d : ℚ) - n / d| ≤ 1 / 2 := by
  have hdiv : n / d * d + n % d = n := Nat.div_add_mod' n d
  have hnext : (n / d + 1) * d = n / d * d + d := Nat.succ_mul _ _
  have hle : 2 * (roundHalfEven n d * d) ≤ 2 * n + d ∧ 2 * n ≤ 2 * (roundHalfEven n d * d) + d := by
    have hr := Nat.mod_lt n hd
    rw [roundHalfEven]
    split_ifs <;> omega
  have hlo : (2 : ℚ) * (roundHalfEven n d * d) ≤ 2 * n + d := by exact_mod_cast hle.1
  have hhi : (2 : ℚ) * n ≤ 2 * (roundHalfEven n d * d) + d := by exact_mod_cast hle.2
  have hd' : (0 : ℚ) < d := by exact_mod_cast hd
  have hdist : (roundHalfEven n d : ℚ) - n / d
      = (2 * (roundHalfEven n d * d) - 2 * n) / (2 * d) := by
    field_simp
  rw [hdist, abs_div, abs_of_pos (show (0 : ℚ) < 2 * d by positivity), div_le_iff₀ (by positivity),
    abs_le]
  constructor <;> linarith

/-! ### Magnitudes -/

namespace Magnitude

/-- From the power of two on at which doubles stand more than one unit apart, a magnitude has 53
bits more than their distance. -/
theorem units_bounds {m : Magnitude} (h : 0 < m.exponent) :
    2 ^ (52 + m.exponent) ≤ m.units ∧ m.units < 2 ^ (53 + m.exponent) := by
  have hlog : m.units.log2 = 52 + m.exponent := by
    unfold exponent at *
    omega
  have hne : m.units ≠ 0 := by
    intro h0
    rw [h0, Nat.log2_zero] at hlog
    omega
  have hsucc : 53 + m.exponent = m.units.log2 + 1 := by omega
  rw [hsucc, ← hlog]
  exact ⟨Nat.log2_self_le hne, Nat.lt_log2_self⟩

/-- A magnitude is a multiple of the distance of doubles around it. -/
theorem units_eq (m : Magnitude) : m.units = m.significand * 2 ^ m.exponent := by
  have hdvd : 2 ^ m.exponent ∣ m.units := by
    obtain ⟨a, k, ha, hunits⟩ := m.fits
    rw [twoTo_eq] at ha hunits
    rcases Nat.lt_or_ge k m.exponent with hk | hk
    · -- then the 53 bits of the significand are used up by a power of two
      have hlow := (units_bounds (m := m) (by omega)).1
      have hpow : 2 ^ (53 + k) ≤ m.units :=
        (Nat.pow_le_pow_right (by decide) (by omega)).trans hlow
      have ha' : a = 2 ^ 53 := by
        rw [hunits, pow_add] at hpow
        exact le_antisymm ha (Nat.le_of_mul_le_mul_right hpow (Nat.two_pow_pos k))
      have hunits' : m.units = 2 ^ (53 + k) := by rw [hunits, ha', pow_add]
      have hexp : m.exponent = k + 1 := by
        have hle := (Nat.pow_le_pow_iff_right (by decide)).mp (hunits' ▸ hlow)
        omega
      rw [hunits', hexp]
      exact Nat.pow_dvd_pow 2 (by omega)
    · exact hunits ▸ (Nat.pow_dvd_pow 2 hk).mul_left a
  exact (Nat.div_mul_cancel hdvd).symm

theorem significand_lt (m : Magnitude) : m.significand < 2 ^ 53 := by
  rw [significand, twoTo_eq, Nat.div_lt_iff_lt_mul (Nat.two_pow_pos _), ← pow_add]
  refine Nat.lt_of_lt_of_le Nat.lt_log2_self (Nat.pow_le_pow_right (by decide) ?_)
  unfold exponent
  omega

theorem le_significand {m : Magnitude} (h : 0 < m.exponent) : 2 ^ 52 ≤ m.significand := by
  rw [significand, twoTo_eq, Nat.le_div_iff_mul_le (Nat.two_pow_pos _), ← pow_add]
  exact (units_bounds h).1

/-- Whether a number, in units, rounds to a magnitude: whether it lies between the middles to the
next doubles, or on one of these middles and the significand is even. -/
def Absorbs (m : Magnitude) (x : ℚ) : Prop :=
  if m.significand % 2 = 0 then
    m.units - (m.lowerQuarters : ℚ) / 4 ≤ x ∧ x ≤ m.units + (m.upperQuarters : ℚ) / 4
  else m.units - (m.lowerQuarters : ℚ) / 4 < x ∧ x < m.units + (m.upperQuarters : ℚ) / 4

variable {m : Magnitude} {x : ℚ}

theorem Absorbs.bounds (h : m.Absorbs x) :
    m.units - (m.lowerQuarters : ℚ) / 4 ≤ x ∧ x ≤ m.units + (m.upperQuarters : ℚ) / 4 := by
  unfold Absorbs at h
  split at h
  · exact h
  · exact ⟨h.1.le, h.2.le⟩

theorem absorbs_of_lt (hlo : m.units - (m.lowerQuarters : ℚ) / 4 < x)
    (hhi : x < m.units + (m.upperQuarters : ℚ) / 4) : m.Absorbs x := by
  unfold Absorbs
  split
  · exact ⟨hlo.le, hhi.le⟩
  · exact ⟨hlo, hhi⟩

theorem upperQuarters_eq (m : Magnitude) : (m.upperQuarters : ℚ) / 4 = 2 ^ m.exponent / 2 := by
  rw [upperQuarters, twoTo_eq]
  push_cast
  ring

/-- Below a power of two the interval reaches half as far. -/
theorem lowerQuarters_eq (m : Magnitude) :
    (m.lowerQuarters : ℚ) / 4
      = if m.significand = 2 ^ 52 ∧ 0 < m.exponent then 2 ^ m.exponent / 4
        else 2 ^ m.exponent / 2 := by
  rw [lowerQuarters, twoTo_eq, twoTo_eq]
  split_ifs
  · push_cast
    ring
  · push_cast
    ring

theorem lowerQuarters_le (m : Magnitude) : (m.lowerQuarters : ℚ) / 4 ≤ 2 ^ m.exponent / 2 := by
  have hgap : (0 : ℚ) < 2 ^ m.exponent := by positivity
  rw [lowerQuarters_eq]
  split_ifs <;> linarith

/-- A magnitude rounds to itself. -/
theorem absorbs_units (m : Magnitude) : m.Absorbs m.units := by
  have hgap : (0 : ℚ) < 2 ^ m.exponent := by positivity
  refine absorbs_of_lt ?_ (by linarith [upperQuarters_eq m])
  rw [lowerQuarters_eq]
  split_ifs <;> linarith

/-! ### Rounding to a magnitude -/

private theorem div_lt_two_pow_iff {n d k : Nat} (hd : 0 < d) :
    n / d < 2 ^ k ↔ (n : ℚ) / d < 2 ^ k := by
  rw [Nat.div_lt_iff_lt_mul hd, div_lt_iff₀ (by exact_mod_cast hd)]
  exact_mod_cast Iff.rfl

/-- The distance of doubles around a quotient follows from the powers of two around it. -/
private theorem spacing_eq {n d e : Nat} (hd : 0 < d) (hhi : (n : ℚ) / d < 2 ^ (53 + e))
    (hlo : 0 < e → (2 : ℚ) ^ (52 + e) ≤ n / d) : spacing n d = e := by
  have hlt := (div_lt_two_pow_iff hd).mpr hhi
  unfold spacing
  rcases Nat.eq_zero_or_pos e with rfl | he
  · rcases Nat.eq_zero_or_pos (n / d) with h0 | hpos
    · rw [h0, Nat.log2_zero]
    · have := (Nat.log2_lt hpos.ne').mpr hlt
      omega
  · have hge : 2 ^ (52 + e) ≤ n / d := by
      rw [← not_lt, div_lt_two_pow_iff hd, not_lt]
      exact hlo he
    have hne : n / d ≠ 0 := (Nat.two_pow_pos _).trans_le hge |>.ne'
    have h₁ := (Nat.log2_lt hne).mpr hlt
    have h₂ := (Nat.le_log2 hne).mpr hge
    omega

/-- A quotient within half of a distance of doubles from one of them is rounded to it. -/
private theorem roundUnits_eq_of_near {n d a k : Nat} (hd : 0 < d) (hk : spacing n d = k)
    (h : |(n : ℚ) / d - a * 2 ^ k| < 2 ^ k / 2 ∨
      |(n : ℚ) / d - a * 2 ^ k| ≤ 2 ^ k / 2 ∧ a % 2 = 0) : roundUnits n d = a * 2 ^ k := by
  have hpow : (0 : ℚ) < 2 ^ k := by positivity
  have hscaled : |(n : ℚ) / ((d * 2 ^ k : Nat) : ℚ) - a| = |(n : ℚ) / d - a * 2 ^ k| / 2 ^ k := by
    rw [← abs_of_pos hpow, ← abs_div, abs_of_pos hpow]
    congr 1
    push_cast
    field_simp
  rw [roundUnits, hk, twoTo_eq,
    roundHalfEven_eq (m := a) (Nat.mul_pos hd (Nat.two_pow_pos k)) ?_]
  rw [hscaled, div_lt_iff₀ hpow, div_le_iff₀ hpow, one_div_mul_eq_div]
  exact h

/-- A number below the power of two that a magnitude is can round to it only from within a quarter
of the distance of doubles above. -/
private theorem significand_eq_of_lt (h : m.Absorbs x) (he : 0 < m.exponent)
    (hlt : x < 2 ^ 52 * 2 ^ m.exponent) :
    m.significand = 2 ^ 52 ∧ 2 ^ 52 * 2 ^ m.exponent - 2 ^ m.exponent / 4 ≤ x := by
  have hunits : (m.units : ℚ) = m.significand * 2 ^ m.exponent := by exact_mod_cast m.units_eq
  have hgap : (0 : ℚ) < 2 ^ m.exponent := by positivity
  obtain ⟨hlo, -⟩ := h.bounds
  rw [lowerQuarters_eq, hunits] at hlo
  have hsig : m.significand = 2 ^ 52 := by
    by_contra hne
    have hgt : (2 : ℚ) ^ 52 + 1 ≤ m.significand := by
      exact_mod_cast lt_of_le_of_ne (le_significand he) (Ne.symm hne)
    rw [if_neg fun h => hne h.1] at hlo
    nlinarith
  rw [if_pos ⟨hsig, he⟩, hsig] at hlo
  exact ⟨hsig, by exact_mod_cast hlo⟩

/-- A quotient that a magnitude absorbs is rounded to it. -/
theorem roundUnits_eq {n d : Nat} (hd : 0 < d) (h : m.Absorbs (n / d)) :
    roundUnits n d = m.units := by
  have hunits : (m.units : ℚ) = m.significand * 2 ^ m.exponent := by exact_mod_cast m.units_eq
  have hgap : (0 : ℚ) < 2 ^ m.exponent := by positivity
  have hsig : (m.significand : ℚ) + 1 ≤ 2 ^ 53 := by exact_mod_cast m.significand_lt
  have hhi := h.bounds.2
  rw [upperQuarters_eq] at hhi
  have htop : (n : ℚ) / d < 2 ^ (53 + m.exponent) := by
    rw [pow_add]
    nlinarith
  by_cases hbelow : 0 < m.exponent ∧ (n : ℚ) / d < 2 ^ (52 + m.exponent)
  · -- the quotient lies below the power of two that the magnitude is, where doubles are closer
    obtain ⟨he, hlt⟩ := hbelow
    rw [pow_add] at hlt
    obtain ⟨hsig, hlo⟩ := significand_eq_of_lt h he hlt
    obtain ⟨j, hj⟩ : ∃ j, m.exponent = j + 1 := ⟨m.exponent - 1, by omega⟩
    have hpow : (0 : ℚ) < 2 ^ j := by positivity
    rw [hj, pow_succ _ j] at hlt hlo
    have hspacing : spacing n d = j :=
      spacing_eq hd (by rw [pow_add]; linarith) fun _ => by rw [pow_add]; linarith
    have hnear : |(n : ℚ) / d - (2 ^ 53 : Nat) * 2 ^ j| ≤ 2 ^ j / 2 := by
      rw [abs_le]
      push_cast
      constructor <;> linarith
    rw [roundUnits_eq_of_near hd hspacing (.inr ⟨hnear, by decide⟩), m.units_eq, hsig, hj]
    ring
  · have hspacing : spacing n d = m.exponent :=
      spacing_eq hd htop fun he => not_lt.mp fun hlt => hbelow ⟨he, hlt⟩
    rw [roundUnits_eq_of_near hd hspacing ?_, ← m.units_eq]
    have hlower := lowerQuarters_le m
    have hupper := upperQuarters_eq m
    rw [← hunits, abs_lt, abs_le]
    unfold Absorbs at h
    split at h
    · rename_i heven
      exact .inr ⟨⟨by linarith [h.1], by linarith [h.2]⟩, heven⟩
    · exact .inl ⟨by linarith [h.1], by linarith [h.2]⟩

/-- Doubles stand no further apart than a magnitude other than zero is large. -/
theorem gap_le (hm : m.units ≠ 0) : (2 : ℚ) ^ m.exponent ≤ m.units := by
  have hsig : 1 ≤ m.significand :=
    Nat.one_le_iff_ne_zero.mpr fun h0 => hm (by rw [m.units_eq, h0, Nat.zero_mul])
  have hle : 2 ^ m.exponent ≤ m.units := by
    rw [m.units_eq]
    exact Nat.le_mul_of_pos_left _ hsig
  exact_mod_cast hle

/-- A number that rounds to a magnitude other than zero is at least half and at most twice as
large. -/
theorem Absorbs.half_le (h : m.Absorbs x) (hm : m.units ≠ 0) :
    (m.units : ℚ) / 2 ≤ x ∧ x ≤ 2 * m.units := by
  have hgap := gap_le hm
  have hlower := lowerQuarters_le m
  have hupper := upperQuarters_eq m
  obtain ⟨hlo, hhi⟩ := h.bounds
  constructor <;> linarith

theorem Absorbs.pos (h : m.Absorbs x) (hm : m.units ≠ 0) : 0 < x := by
  have hpos : (0 : ℚ) < m.units := by exact_mod_cast Nat.pos_of_ne_zero hm
  linarith [(h.half_le hm).1]

end Magnitude

/-! ### Reading decimal numbers -/

namespace Double

variable {m : Magnitude} {c : Nat} {k : Int} {negative : Bool}

theorem unitScale_pos : (0 : ℚ) < unitScale := by exact_mod_cast twoTo_pos 1074

theorem unitScale_eq : (unitScale : ℚ) = 2 ^ 1074 := by
  rw [unitScale, twoTo_eq, Nat.cast_pow, Nat.cast_ofNat]

/-- A magnitude lies below two to the power 1024. -/
theorem units_lt (m : Magnitude) : (m.units : ℚ) < 2 ^ 1024 * unitScale := by
  have hlimit : unitLimit = twoTo 1024 * unitScale := by
    rw [unitLimit, unitScale, twoTo_add]
  have hcast : (m.units : ℚ) < (twoTo 1024 * unitScale : Nat) :=
    Nat.cast_lt.mpr (hlimit ▸ m.bounded)
  rwa [Nat.cast_mul, twoTo_eq, Nat.cast_pow, Nat.cast_ofNat] at hcast

/-- A number that rounds to a double other than zero has no exponent beyond the range in which
numbers are read with care. -/
private theorem exponent_bounds (hm : m.units ≠ 0) (h : m.Absorbs (c * 10 ^ k * unitScale)) :
    c ≠ 0 ∧ k ≤ 400 ∧ -400 ≤ k + c.log2 := by
  have hlimit := units_lt m
  have hscale := unitScale_pos
  have hscale' : 2 * (unitScale : ℚ) ≤ 10 ^ 360 := by
    calc 2 * (unitScale : ℚ) = 2 ^ 1075 := by rw [unitScale_eq, ← pow_succ']
      _ ≤ 2 ^ (3 * 360) := pow_le_pow_right₀ (by norm_num) (by norm_num)
      _ ≤ 10 ^ 360 := two_pow_le_ten_pow 360
  -- what follows only uses these bounds on the number of units in one
  generalize (unitScale : ℚ) = scale at *
  have hpow : (0 : ℚ) < 10 ^ k := by positivity
  obtain ⟨hlo, hhi⟩ := h.half_le hm
  have hc : c ≠ 0 := by
    rintro rfl
    have := h.pos hm
    simp at this
  have hlarge : (10 : ℚ) ^ k < 10 ^ (400 : Int) := by
    have hone : (1 : ℚ) ≤ c := by exact_mod_cast Nat.one_le_iff_ne_zero.mpr hc
    have hlt : (10 : ℚ) ^ k * scale < 2 * 2 ^ 1024 * scale := by
      calc (10 : ℚ) ^ k * scale ≤ c * (10 ^ k * scale) :=
            le_mul_of_one_le_left (by positivity) hone
        _ = c * 10 ^ k * scale := (mul_assoc _ _ _).symm
        _ ≤ 2 * m.units := hhi
        _ < 2 * (2 ^ 1024 * scale) := mul_lt_mul_of_pos_left hlimit two_pos
        _ = 2 * 2 ^ 1024 * scale := (mul_assoc _ _ _).symm
    calc (10 : ℚ) ^ k < 2 * 2 ^ 1024 := lt_of_mul_lt_mul_right hlt hscale.le
      _ = 2 ^ 1025 := by rw [← pow_succ']
      _ ≤ 2 ^ (3 * 400) := pow_le_pow_right₀ (by norm_num) (by norm_num)
      _ ≤ 10 ^ 400 := two_pow_le_ten_pow 400
      _ = 10 ^ (400 : Int) := (zpow_natCast 10 400).symm
  have hsmall : (1 : ℚ) < 10 ^ (k + c.log2 + 361) := by
    have hone : (1 : ℚ) ≤ m.units := by exact_mod_cast Nat.one_le_iff_ne_zero.mpr hm
    have hcoeff : (c : ℚ) < 10 ^ (c.log2 + 1) := by
      have : (c : ℚ) < 2 ^ (c.log2 + 1) := by exact_mod_cast Nat.lt_log2_self
      exact this.trans_le (pow_le_pow_left₀ (by norm_num) (by norm_num) _)
    calc (1 : ℚ) ≤ c * (10 ^ k * (2 * scale)) := by linarith
      _ < 10 ^ (c.log2 + 1) * (10 ^ k * (2 * scale)) :=
        mul_lt_mul_of_pos_right hcoeff (by positivity)
      _ ≤ 10 ^ (c.log2 + 1) * (10 ^ k * 10 ^ 360) := by gcongr
      _ = 10 ^ (k + c.log2 + 361) := by
        rw [← zpow_natCast, ← zpow_natCast, ← zpow_add₀ (by norm_num), ← zpow_add₀ (by norm_num)]
        congr 1
        push_cast
        ring
  refine ⟨hc, ((zpow_lt_zpow_iff_right₀ (by norm_num)).mp hlarge).le, ?_⟩
  rw [← zpow_zero (10 : ℚ)] at hsmall
  have := (zpow_lt_zpow_iff_right₀ (by norm_num)).mp hsmall
  omega

/-- A decimal number that a magnitude other than zero absorbs is read as the double of that
magnitude. -/
theorem ofDecimal_eq (hm : m.units ≠ 0) (h : m.Absorbs (c * 10 ^ k * unitScale)) :
    ofDecimal negative c k = .finite negative m := by
  have hofUnits : ∀ {n d : Nat}, 0 < d → m.Absorbs (n / d) →
      ofUnits negative n d = .finite negative m := by
    intro n d hd h
    have hround := Magnitude.roundUnits_eq hd h
    rw [ofUnits, dif_pos (hround ▸ m.bounded)]
    congr 1
    cases m
    simp only [Magnitude.mk.injEq]
    exact hround
  obtain ⟨hc, hk, hk'⟩ := exponent_bounds hm h
  rw [ofDecimal, if_neg hc, if_neg (not_lt.mpr hk), if_neg (not_lt.mpr hk')]
  split_ifs with hsign
  · refine hofUnits Nat.one_pos ?_
    obtain ⟨j, rfl⟩ := Int.eq_ofNat_of_zero_le hsign
    rw [zpow_natCast] at h
    rw [tenTo_eq, Int.toNat_natCast]
    push_cast
    rwa [div_one]
  · refine hofUnits (Nat.pow_pos (by decide)) ?_
    obtain ⟨j, rfl⟩ : ∃ j : Nat, k = -j := ⟨(-k).toNat, by omega⟩
    rw [zpow_neg, zpow_natCast] at h
    rw [tenTo_eq, neg_neg, Int.toNat_natCast]
    push_cast
    rwa [mul_right_comm, ← div_eq_mul_inv] at h

end Double

end TableRules
