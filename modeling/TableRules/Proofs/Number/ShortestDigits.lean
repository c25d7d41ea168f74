import TableRules.Proofs.Number.Rounding

/-!
# Decimal digits that identify a double

Both choices of decimal digits, the fewest (`Magnitude.shortest`) and seventeen
(`Magnitude.rounded`), give a number that rounds to the magnitude they are chosen for. The reason
is that a grid of powers of ten sixteen places below the leading digit is finer than the doubles:
its steps are shorter than the distance of doubles at the magnitude, and than half of it where the
magnitude is a power of two (`step_lt`).

* `shortest_absorbs`: on that grid one of the two neighbours of the magnitude rounds to it, so the
  search for the fewest digits always finds a number, and what it finds rounds to the magnitude.
* `rounded_absorbs`: the nearest point of that grid rounds to the magnitude.
-/

namespace TableRules

/-- The number that decimal digits stand for. -/
def DecimalDigits.value (d : DecimalDigits) : ℚ := d.coefficient * 10 ^ d.power

/-- Removing zeros from the end of a coefficient keeps the number. -/
theorem DecimalDigits.value_stripZeros (fuel : Nat) (d : DecimalDigits) :
    (stripZeros fuel d).value = d.value := by
  induction fuel generalizing d with
  | zero => rfl
  | succ fuel ih =>
    rw [stripZeros]
    split
    · rename_i hzero
      have hc : (d.coefficient : ℚ) = (d.coefficient / 10 : Nat) * 10 := by
        exact_mod_cast (Nat.div_mul_cancel (Nat.dvd_of_mod_eq_zero hzero.2)).symm
      rw [ih, value, value, hc, zpow_add_one₀ (by norm_num)]
      ring
    · rfl

namespace Magnitude

open Double (unitScale_pos unitScale_eq)

variable {m : Magnitude} {c : Nat} {k : Int}

/-- A power of ten as a quotient of two, one of which is one. -/
private theorem zpow_eq_div (k : Int) :
    (10 : ℚ) ^ k = (tenTo k.toNat : ℚ) / tenTo (-k).toNat := by
  rw [tenTo_eq, tenTo_eq, Nat.cast_pow, Nat.cast_pow, Nat.cast_ofNat]
  rcases Int.le_total 0 k with hk | hk
  · obtain ⟨j, rfl⟩ := Int.eq_ofNat_of_zero_le hk
    simp
  · obtain ⟨j, rfl⟩ : ∃ j : Nat, k = -j := ⟨(-k).toNat, by omega⟩
    simp

/-- The check for rounding is exact: it decides whether the magnitude absorbs the point. -/
theorem rounds_iff (hm : m.units ≠ 0) :
    m.rounds c k = true ↔ m.Absorbs (c * 10 ^ k * unitScale) := by
  have hlower : m.lowerQuarters ≤ 4 * m.units := by
    have h : (m.lowerQuarters : ℚ) ≤ 4 * m.units := by
      have hhalf := lowerQuarters_le m
      have hgap := gap_le hm
      linarith
    exact_mod_cast h
  have hq : (0 : ℚ) < tenTo (-k).toNat := by exact_mod_cast Nat.pow_pos (by decide)
  unfold rounds Absorbs
  dsimp only
  rw [zpow_eq_div]
  generalize unitScale = scale
  generalize tenTo k.toNat = p
  generalize tenTo (-k).toNat = q at *
  have hpoint : (c : ℚ) * (p / q) * scale = (c * p * (4 * scale) : Nat) / (4 * q) := by
    push_cast
    field_simp
  have hlow : (m.units : ℚ) - (m.lowerQuarters : ℚ) / 4
      = ((4 * m.units - m.lowerQuarters) * q : Nat) / (4 * q) := by
    rw [Nat.cast_mul, Nat.cast_sub hlower]
    push_cast
    field_simp
  have hhigh : (m.units : ℚ) + (m.upperQuarters : ℚ) / 4
      = ((4 * m.units + m.upperQuarters) * q : Nat) / (4 * q) := by
    push_cast
    field_simp
  have hpos : (0 : ℚ) < 4 * q := by positivity
  rw [hpoint, hlow, hhigh]
  simp only [div_le_div_iff_of_pos_right hpos, div_lt_div_iff_of_pos_right hpos, Nat.cast_le,
    Nat.cast_lt]
  split <;> simp

/-! ### The grid below the leading digit -/

theorem absorbs_of_near {x : ℚ} (h : |x - m.units| < 2 ^ m.exponent / 2)
    (hpow : m.significand = 2 ^ 52 → m.units - (2 : ℚ) ^ m.exponent / 4 < x) : m.Absorbs x := by
  obtain ⟨hlo, hhi⟩ := abs_lt.mp h
  refine absorbs_of_lt ?_ (by linarith [upperQuarters_eq m])
  rw [lowerQuarters_eq]
  split_ifs with hsig
  · exact hpow hsig.1
  · linarith

private theorem tenTo_le_of_countDigits {n : Nat} (h : n ≠ 0) :
    10 ^ (DecimalDigits.countDigits n - 1) ≤ n := by
  rcases Nat.eq_zero_or_pos (DecimalDigits.countDigits n - 1) with h0 | hpos
  · rw [h0]
    exact Nat.one_le_iff_ne_zero.mpr h
  · rw [← not_lt, ← Nat.length_toDigits_le_iff (by decide) hpos]
    unfold DecimalDigits.countDigits at *
    omega

/-- The leading power of ten is not above the magnitude. -/
theorem leadingPower_le (hm : m.units ≠ 0) :
    (10 : ℚ) ^ m.leadingPower * unitScale ≤ m.units := by
  have hscale : 0 < unitScale := twoTo_pos 1074
  have hlarge : unitScale ≤ tenTo 400 := (twoTo_le_twoTo (by decide)).trans (twoTo_le_tenTo 400)
  rw [tenTo_eq] at hlarge
  rw [leadingPower, tenTo_eq]
  generalize unitScale = scale at *
  have hfloor : m.units * 10 ^ 400 / scale ≠ 0 := by
    refine (Nat.div_pos ?_ hscale).ne'
    exact hlarge.trans (Nat.le_mul_of_pos_left _ (Nat.pos_of_ne_zero hm))
  have hlead := tenTo_le_of_countDigits hfloor
  rw [Nat.le_div_iff_mul_le hscale] at hlead
  have hcount : 1 ≤ DecimalDigits.countDigits (m.units * 10 ^ 400 / scale) :=
    Nat.length_toDigits_pos
  obtain ⟨j, hj⟩ := Nat.exists_eq_add_of_le' hcount
  have hcast : (10 : ℚ) ^ j * scale ≤ m.units * 10 ^ 400 := by
    rw [hj] at hlead
    exact_mod_cast hlead
  have hsplit : ((DecimalDigits.countDigits (m.units * 10 ^ 400 / scale) : Nat) : Int) - 401
      = (j : Int) - (400 : Nat) := by
    rw [hj]
    push_cast
    ring
  rw [hsplit, zpow_sub₀ (by norm_num), zpow_natCast, zpow_natCast, div_mul_eq_mul_div,
    div_le_iff₀ (by positivity)]
  exact hcast

/-- The steps of the grid sixteen places below the leading digit are shorter than the distance of
doubles, and than half of it at a power of two. -/
theorem step_lt (hm : m.units ≠ 0) :
    (10 : ℚ) ^ (m.leadingPower - 16) * unitScale < 2 ^ m.exponent ∧
      (m.significand = 2 ^ 52 →
        (10 : ℚ) ^ (m.leadingPower - 16) * unitScale < 2 ^ m.exponent / 2) := by
  have hunits : (m.units : ℚ) = m.significand * 2 ^ m.exponent := by exact_mod_cast m.units_eq
  have hgap : (0 : ℚ) < 2 ^ m.exponent := by positivity
  have hsig : (m.significand : ℚ) < 2 ^ 53 := by exact_mod_cast m.significand_lt
  have hstep : (10 : ℚ) ^ (m.leadingPower - 16) * unitScale
      = 10 ^ m.leadingPower * unitScale / 10 ^ 16 := by
    rw [zpow_sub₀ (by norm_num)]
    norm_cast
    ring
  have hlead := leadingPower_le hm
  rw [hstep]
  constructor
  · rw [div_lt_iff₀ (by norm_num)]
    nlinarith
  · intro hpow
    rw [hpow] at hunits
    rw [div_lt_iff₀ (by norm_num)]
    push_cast at hunits
    linarith

/-- The point of a grid below a magnitude, and the next. -/
theorem below_bounds (m : Magnitude) (k : Int) :
    m.below k * 10 ^ k * unitScale ≤ (m.units : ℚ) ∧
      (m.units : ℚ) < (m.below k + 1) * 10 ^ k * unitScale := by
  have hs : 0 < tenTo (-k).toNat := Nat.pow_pos (by decide)
  have hd : 0 < tenTo k.toNat * unitScale := Nat.mul_pos (Nat.pow_pos (by decide)) (twoTo_pos 1074)
  have hlo := Nat.div_mul_le_self (m.units * tenTo (-k).toNat) (tenTo k.toNat * unitScale)
  have hhi := Nat.lt_mul_div_succ (m.units * tenTo (-k).toNat) hd
  change m.below k * (tenTo k.toNat * unitScale) ≤ _ at hlo
  change _ < tenTo k.toNat * unitScale * (m.below k + 1) at hhi
  rw [zpow_eq_div]
  generalize unitScale = scale at *
  generalize tenTo k.toNat = p at *
  generalize tenTo (-k).toNat = q at *
  have hq : (0 : ℚ) < q := by exact_mod_cast hs
  have hpoint : ∀ c : ℚ, c * ((p : ℚ) / q) * scale = c * (p * scale) / q := fun c => by
    field_simp
  rw [hpoint, hpoint, div_le_iff₀ hq, lt_div_iff₀ hq]
  exact ⟨by exact_mod_cast hlo, by rw [mul_comm (_ + 1)]; exact_mod_cast hhi⟩

/-- On the grid sixteen places below the leading digit, the point below the magnitude or the next
one rounds to it. -/
theorem rounds_below (hm : m.units ≠ 0) :
    m.rounds (m.below (m.leadingPower - 16)) (m.leadingPower - 16) = true ∨
      m.rounds (m.below (m.leadingPower - 16) + 1) (m.leadingPower - 16) = true := by
  obtain ⟨hlo, hhi⟩ := m.below_bounds (m.leadingPower - 16)
  obtain ⟨hstep, hstep'⟩ := step_lt hm
  rw [rounds_iff hm, rounds_iff hm, Nat.cast_add, Nat.cast_one]
  have hnext : ((m.below (m.leadingPower - 16) : ℚ) + 1) * 10 ^ (m.leadingPower - 16) * unitScale
      = m.below (m.leadingPower - 16) * 10 ^ (m.leadingPower - 16) * unitScale
        + 10 ^ (m.leadingPower - 16) * unitScale := by ring
  rw [hnext] at hhi ⊢
  generalize (m.below (m.leadingPower - 16) : ℚ) * 10 ^ (m.leadingPower - 16) * unitScale = point
    at *
  generalize (10 : ℚ) ^ (m.leadingPower - 16) * unitScale = step at *
  -- the nearer of the two points rounds to the magnitude; at a power of two, the one above does
  by_cases hnear : (m.units : ℚ) - point < 2 ^ m.exponent / 2 ∧ m.significand ≠ 2 ^ 52
  · exact .inl (absorbs_of_near (abs_lt.mpr ⟨by linarith, by linarith⟩)
      fun hsig => absurd hsig hnear.2)
  · refine .inr (absorbs_of_near ?_ fun _ => by linarith [pow_pos (two_pos (α := ℚ)) m.exponent])
    rw [not_and_or, not_lt, not_not] at hnear
    rcases hnear with hfar | hsig
    · exact abs_lt.mpr ⟨by linarith, by linarith⟩
    · have := hstep' hsig
      exact abs_lt.mpr ⟨by linarith, by linarith⟩

/-! ### The fewest digits -/

theorem rounds_of_neighbour? (h : m.neighbour? k = some c) : m.rounds c k = true := by
  unfold neighbour? at h
  dsimp only at h
  cases hbelow : m.rounds (m.below k) k <;> cases hnext : m.rounds (m.below k + 1) k <;>
    simp only [hbelow, hnext] at h
  · simp at h
  · exact Option.some.inj h ▸ hnext
  · exact Option.some.inj h ▸ hbelow
  · have hc : c = m.below k ∨ c = m.below k + 1 := by
      split_ifs at h <;> simp only [Option.some.injEq] at h <;> omega
    rcases hc with rfl | rfl
    · exact hbelow
    · exact hnext

theorem isSome_neighbour? (h : m.rounds (m.below k) k = true ∨ m.rounds (m.below k + 1) k = true) :
    (m.neighbour? k).isSome = true := by
  unfold neighbour?
  dsimp only
  cases hbelow : m.rounds (m.below k) k <;> cases hnext : m.rounds (m.below k + 1) k <;>
    simp only [hbelow, hnext] at h ⊢
  · simp at h
  · rfl
  · rfl
  · split_ifs <;> rfl

/-- **The fewest digits identify a magnitude**: they stand for a number that rounds to it. -/
theorem shortest_absorbs (hm : m.units ≠ 0) : m.Absorbs (m.shortest.value * unitScale) := by
  have hlast : m.leadingPower - 16
      ∈ (List.range 17).map fun i : Nat => m.leadingPower - (i : Int) :=
    List.mem_map.mpr ⟨16, by simp, rfl⟩
  have hfound : (((List.range 17).map fun i : Nat => m.leadingPower - (i : Int)).findSome? fun k =>
      (m.neighbour? k).map fun c => DecimalDigits.mk c k).isSome = true :=
    List.findSome?_isSome_iff.mpr
      ⟨_, hlast, by rw [Option.isSome_map]; exact isSome_neighbour? (rounds_below hm)⟩
  obtain ⟨d, hd⟩ := Option.isSome_iff_exists.mp hfound
  obtain ⟨k, -, hk⟩ := List.exists_of_findSome?_eq_some hd
  obtain ⟨c, hc, rfl⟩ := Option.map_eq_some_iff.mp hk
  rw [shortest, DecimalDigits.value_stripZeros, hd, Option.getD_some]
  exact (rounds_iff hm).mp (rounds_of_neighbour? hc)

/-! ### Seventeen digits -/

/-- A magnitude is rounded to the nearest point of the grid, also where a carry of the coefficient
is taken into the power. -/
private theorem value_rounded (hm : m.units ≠ 0) {digits : Nat} (hdigits : 0 < digits)
    (hk : m.leadingPower - (digits : Int) + 1 = k) :
    (m.rounded digits).value
      = roundHalfEven (m.units * tenTo (-k).toNat) (tenTo k.toNat * unitScale) * 10 ^ k := by
  rw [rounded, if_neg hm, hk]
  dsimp only
  generalize roundHalfEven _ _ = c
  split_ifs with hcarry
  · have hdvd : 10 ∣ c := by
      rw [hcarry, tenTo_eq]
      exact dvd_pow_self 10 hdigits.ne'
    have hten : (c : ℚ) = (c / 10 : Nat) * 10 := by
      exact_mod_cast (Nat.div_mul_cancel hdvd).symm
    rw [hten, DecimalDigits.value, zpow_add_one₀ (by norm_num)]
    ring
  · rfl

/-- A magnitude is rounded to a point that is at most half a step away. -/
private theorem value_rounded_near (hm : m.units ≠ 0) {digits : Nat} (hdigits : 0 < digits)
    (hk : m.leadingPower - (digits : Int) + 1 = k) :
    |(m.rounded digits).value * unitScale - m.units| ≤ 10 ^ k * unitScale / 2 := by
  have hpos : (0 : ℚ) < 10 ^ k * unitScale := mul_pos (by positivity) unitScale_pos
  have hd : 0 < tenTo k.toNat * unitScale := Nat.mul_pos (Nat.pow_pos (by decide)) (twoTo_pos 1074)
  have hround := roundHalfEven_near (m.units * tenTo (-k).toNat) hd
  have hquotient : ((m.units * tenTo (-k).toNat : Nat) : ℚ) / (tenTo k.toNat * unitScale : Nat)
      = m.units / (10 ^ k * unitScale) := by
    rw [zpow_eq_div, Nat.cast_mul, Nat.cast_mul, div_mul_eq_mul_div, div_div_eq_mul_div]
  rw [hquotient] at hround
  rw [value_rounded hm hdigits hk]
  generalize roundHalfEven _ _ = c at *
  rw [mul_assoc]
  generalize (10 : ℚ) ^ k * unitScale = step at *
  have hscaled : (c : ℚ) * step - m.units = (c - m.units / step) * step := by field_simp
  rw [hscaled, abs_mul, abs_of_pos hpos]
  linarith [mul_le_mul_of_nonneg_right hround hpos.le]

/-- **Seventeen digits identify a magnitude**: they stand for a number that rounds to it. -/
theorem rounded_absorbs (hm : m.units ≠ 0) : m.Absorbs ((m.rounded 17).value * unitScale) := by
  obtain ⟨hstep, hstep'⟩ := step_lt hm
  have hk : m.leadingPower - ((17 : Nat) : Int) + 1 = m.leadingPower - 16 := by
    push_cast
    ring
  have hnear := value_rounded_near hm (by decide) hk
  have hpos : (0 : ℚ) < 10 ^ (m.leadingPower - 16) * unitScale :=
    mul_pos (by positivity) unitScale_pos
  generalize (10 : ℚ) ^ (m.leadingPower - 16) * unitScale = step at *
  refine absorbs_of_near (by linarith) fun hpow => ?_
  have := hstep' hpow
  linarith [(abs_le.mp hnear).1]

end Magnitude

end TableRules
