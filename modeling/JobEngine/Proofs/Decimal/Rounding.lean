import JobEngine.Decimal.Binary64
import Mathlib.Algebra.Order.Field.Power
import Mathlib.Data.Rat.Cast.Order
import Mathlib.Tactic.FieldSimp
import Mathlib.Tactic.Linarith
import Mathlib.Tactic.Positivity
import Mathlib.Tactic.Ring

namespace JobEngine.Binary64

variable {num den n d k : ℕ} {e : ℤ} {negative : Bool} {x y z : Binary64}

def value (x : Binary64) : ℚ := x.mantissa * 2 ^ x.exponent

/-- Half a step above the greatest double: from here on numbers have no nearest double. -/
def overflow : ℚ := (2 ^ 54 - 1) * 2 ^ 970

theorem value_nonneg (x : Binary64) : 0 ≤ x.value := by
  unfold value
  positivity

theorem scale_ratio (num den : ℕ) (e : ℤ) :
    ((scale num den e).1 : ℚ) / (scale num den e).2 = num / den * 2 ^ e := by
  unfold scale
  split
  · next h =>
    have : (2 : ℚ) ^ e = 2 ^ e.toNat := by rw [← zpow_natCast, Int.toNat_of_nonneg h]
    simp only [this, Nat.pow_eq]
    push_cast
    ring
  · next h =>
    have : (2 : ℚ) ^ e = (2 ^ (-e).toNat)⁻¹ := by
      rw [← zpow_natCast, Int.toNat_of_nonneg (by omega), zpow_neg, inv_inv]
    simp only [this, Nat.pow_eq]
    push_cast
    rw [← div_div, div_eq_mul_inv (_ / _)]

theorem scale_den_pos (hd : 0 < den) : 0 < (scale num den e).2 := by
  unfold scale
  split
  · exact hd
  · exact Nat.mul_pos hd (Nat.pow_pos (by decide))

theorem roundHalfEven_le (h : 2 * n < (2 * k + 1) * d) : roundHalfEven n d ≤ k := by
  have hd : 0 < d := Nat.pos_of_ne_zero (by rintro rfl; simp at h)
  have hq : n / d ≤ k := by
    rw [← Nat.lt_succ_iff, Nat.div_lt_iff_lt_mul hd]
    nlinarith
  have hr := Nat.div_add_mod n d
  unfold roundHalfEven
  dsimp only
  split
  · exact hq
  · next hc =>
    rcases hq.lt_or_eq with hq | hq
    · exact hq
    · -- at `k` itself the remainder is below one half
      simp only [Bool.or_eq_true, decide_eq_true_eq, not_or, not_lt] at hc
      rw [hq] at hr
      nlinarith [hc.1]

theorem le_roundHalfEven (hd : 0 < d) (h : k * d ≤ n) : k ≤ roundHalfEven n d := by
  have hq : k ≤ n / d := (Nat.le_div_iff_mul_le hd).2 h
  unfold roundHalfEven
  dsimp only
  split
  · exact hq
  · exact hq.trans (Nat.le_succ _)

theorem log2_bounds (hn : 0 < n) :
    (2 : ℚ) ^ (n.log2 : ℤ) ≤ n ∧ (n : ℚ) < 2 ^ ((n.log2 : ℤ) + 1) := by
  constructor
  · rw [zpow_natCast]
    exact_mod_cast Nat.log2_self_le hn.ne'
  · rw [show (n.log2 : ℤ) + 1 = ((n.log2 + 1 : ℕ) : ℤ) by push_cast; rfl, zpow_natCast]
    exact_mod_cast Nat.lt_log2_self

theorem ratio_bounds (hn : 0 < num) (hd : 0 < den) :
    (2 : ℚ) ^ ((num.log2 : ℤ) - den.log2 - 1) ≤ num / den ∧
      (num / den : ℚ) < 2 ^ ((num.log2 : ℤ) - den.log2 + 1) := by
  obtain ⟨hn₁, hn₂⟩ := log2_bounds hn
  obtain ⟨hd₁, hd₂⟩ := log2_bounds hd
  have hdq : (0 : ℚ) < den := by exact_mod_cast hd
  constructor
  · rw [le_div_iff₀ hdq]
    calc (2 : ℚ) ^ ((num.log2 : ℤ) - den.log2 - 1) * den
        ≤ 2 ^ ((num.log2 : ℤ) - den.log2 - 1) * 2 ^ ((den.log2 : ℤ) + 1) := by gcongr
      _ = 2 ^ (num.log2 : ℤ) := by
          rw [← zpow_add₀ (by norm_num)]
          congr 1
          ring
      _ ≤ num := hn₁
  · rw [div_lt_iff₀ hdq]
    calc (num : ℚ) < 2 ^ ((num.log2 : ℤ) + 1) := hn₂
      _ = 2 ^ ((num.log2 : ℤ) - den.log2 + 1) * 2 ^ (den.log2 : ℤ) := by
          rw [← zpow_add₀ (by norm_num)]
          congr 1
          ring
      _ ≤ 2 ^ ((num.log2 : ℤ) - den.log2 + 1) * den := by gcongr

theorem lt_hiddenBit_iff (hd : 0 < den) :
    (scale num den (-e)).1 < (scale num den (-e)).2 * hiddenBit ↔
      (num / den : ℚ) < 2 ^ (e + 52) := by
  have hs : (0 : ℚ) < (scale num den (-e)).2 := by exact_mod_cast scale_den_pos hd
  have hp : (0 : ℚ) < 2 ^ e := by positivity
  rw [zpow_add₀ (by norm_num), ← div_lt_iff₀' hp, div_eq_mul_inv (_ / _), ← zpow_neg,
    ← scale_ratio, div_lt_iff₀' hs, show (2 : ℚ) ^ (52 : ℤ) = (hiddenBit : ℕ) by
      norm_num [hiddenBit]]
  exact_mod_cast Iff.rfl

/-- The unit leaves 53 bits before the point, or fewer at the least exponent. -/
theorem unitExponent_spec (hn : 0 < num) (hd : 0 < den) :
    -1074 ≤ unitExponent num den ∧ (num / den : ℚ) < 2 ^ 53 * 2 ^ unitExponent num den ∧
      (2 ^ 52 * 2 ^ unitExponent num den ≤ (num / den : ℚ) ∨ unitExponent num den = -1074) := by
  obtain ⟨hl, hu⟩ := ratio_bounds hn hd
  obtain ⟨c, hc, hcl, hcu⟩ : ∃ c, unitExponent num den = max (-1074) c ∧
      (2 : ℚ) ^ (c + 52) ≤ num / den ∧ (num / den : ℚ) < 2 ^ (c + 53) := by
    simp only [unitExponent, lt_hiddenBit_iff hd]
    split
    · next h =>
      refine ⟨_, rfl, ?_, ?_⟩
      · convert hl using 2
        ring
      · convert h using 2
        ring
    · next h =>
      refine ⟨_, rfl, not_lt.1 h, ?_⟩
      convert hu using 2
      ring
  have hpow (k : ℕ) (e : ℤ) : (2 : ℚ) ^ k * 2 ^ e = 2 ^ (e + k) := by
    rw [zpow_add₀ (by norm_num), zpow_natCast, mul_comm]
  rw [hc, hpow, hpow]
  refine ⟨le_max_left _ _, hcu.trans_le (zpow_le_zpow_right₀ (by norm_num) ?_), ?_⟩
  · push_cast
    linarith [le_max_right (-1074) c]
  · rcases le_total (-1074) c with h | h
    · rw [max_eq_right h]
      exact .inl hcl
    · exact .inr (max_eq_left h)

theorem value_eq_steps (h : e ≤ z.exponent) : ∃ k : ℕ, z.value = k * 2 ^ e := by
  refine ⟨z.mantissa * 2 ^ (z.exponent - e).toNat, ?_⟩
  have hp : (2 : ℚ) ^ (z.exponent - e).toNat = 2 ^ (z.exponent - e) := by
    rw [← zpow_natCast, Int.toNat_of_nonneg (by omega)]
  push_cast
  rw [value, hp, mul_assoc, ← zpow_add₀ (by norm_num), sub_add_cancel]

theorem value_lt (h : z.exponent < e) : z.value < 2 ^ 52 * 2 ^ e := by
  have hm : (z.mantissa : ℚ) < 2 ^ 53 := by
    have := z.mantissa_lt
    rw [hiddenBit] at this
    exact_mod_cast this
  calc z.value < 2 ^ 53 * 2 ^ z.exponent := by unfold value; gcongr
    _ = 2 ^ 52 * 2 ^ (z.exponent + 1) := by rw [zpow_add_one₀ (by norm_num)]; ring
    _ ≤ 2 ^ 52 * 2 ^ e := by gcongr <;> [norm_num; omega]

/-- Between a number and what it is rounded to there is no double. -/
structure Rounds (v : ℚ) (y : Binary64) : Prop where
  upper : ∀ z : Binary64, v ≤ z.value → y.value ≤ z.value
  lower : ∀ z : Binary64, z.value ≤ v → z.value ≤ y.value

/-- How many units a ratio is rounded to. -/
def units (num den : ℕ) : ℕ :=
  roundHalfEven (scale num den (-unitExponent num den)).1 (scale num den (-unitExponent num den)).2

theorem ratio_eq (num den : ℕ) (e : ℤ) :
    (num / den : ℚ) = (scale num den (-e)).1 / (scale num den (-e)).2 * 2 ^ e := by
  rw [scale_ratio, mul_assoc, ← zpow_add₀ (by norm_num), neg_add_cancel, zpow_zero, mul_one]

theorem units_le (hd : 0 < den) (h : (num / den : ℚ) < (k + 1 / 2) * 2 ^ unitExponent num den) :
    units num den ≤ k := by
  have hs : (0 : ℚ) < (scale num den (-unitExponent num den)).2 := by
    exact_mod_cast scale_den_pos hd
  have h' := ratio_eq num den (unitExponent num den) ▸ h
  have hlt := (div_lt_iff₀ hs).1 (lt_of_mul_lt_mul_right h' (by positivity))
  refine roundHalfEven_le ?_
  have : (2 : ℚ) * (scale num den (-unitExponent num den)).1 <
      (2 * k + 1) * (scale num den (-unitExponent num den)).2 := by linarith
  exact_mod_cast this

theorem le_units (hd : 0 < den) (h : k * 2 ^ unitExponent num den ≤ (num / den : ℚ)) :
    k ≤ units num den := by
  have hs : (0 : ℚ) < (scale num den (-unitExponent num den)).2 := by
    exact_mod_cast scale_den_pos hd
  have h' := ratio_eq num den (unitExponent num den) ▸ h
  have hle := (le_div_iff₀ hs).1 (le_of_mul_le_mul_right h' (by positivity))
  exact le_roundHalfEven (scale_den_pos hd) (by exact_mod_cast hle)

theorem rounds_of_units (hn : 0 < num) (hd : 0 < den)
    (hy : y.value = units num den * 2 ^ unitExponent num den) : Rounds (num / den) y := by
  obtain ⟨-, -, hfull⟩ := unitExponent_spec hn hd
  have hle (k : ℕ) : (num / den : ℚ) ≤ k * 2 ^ unitExponent num den → units num den ≤ k :=
    fun h ↦ units_le hd (h.trans_lt (mul_lt_mul_of_pos_right (by simp) (by positivity)))
  have hge (k : ℕ) : k * 2 ^ unitExponent num den ≤ (num / den : ℚ) → k ≤ units num den :=
    le_units hd
  generalize unitExponent num den = e at *
  -- a double below the unit is smaller than any ratio with 53 bits before the point
  have hsmall {z : Binary64} (h : z.exponent < e) : z.value < 2 ^ 52 * 2 ^ e ∧
      2 ^ 52 * 2 ^ e ≤ (num / den : ℚ) :=
    ⟨value_lt h, hfull.resolve_right (by have := z.normal.1; omega)⟩
  constructor
  · intro z hz
    rcases lt_or_ge z.exponent e with h | h
    · obtain ⟨hz', hf⟩ := hsmall h
      linarith
    · obtain ⟨k, hk⟩ := value_eq_steps h
      rw [hk] at hz
      rw [hy, hk]
      have := hle k hz
      gcongr
  · intro z hz
    rcases lt_or_ge z.exponent e with h | h
    · obtain ⟨hz', hf⟩ := hsmall h
      have hk := hge (2 ^ 52) (by push_cast; exact hf)
      rw [hy]
      refine hz'.le.trans ?_
      gcongr
      exact_mod_cast hk
    · obtain ⟨k, hk⟩ := value_eq_steps h
      rw [hk] at hz
      rw [hy, hk]
      have := hge k hz
      gcongr

theorem mk?_eq_some (negative : Bool) {m : ℕ} (hm : m < 2 * hiddenBit) (he : e ≤ 971)
    (hl : -1074 ≤ e) (hn : hiddenBit ≤ m ∨ e = -1074) :
    ∃ y, mk? negative m e = some y ∧ y.value = m * 2 ^ e :=
  ⟨_, dif_pos ⟨hm, he, hl, hn⟩, rfl⟩

def ofUnits (negative : Bool) (m : ℕ) (e : ℤ) : Option Binary64 :=
  if m = 2 * hiddenBit then mk? negative hiddenBit (e + 1) else mk? negative m e

theorem ofRatio_eq (hn : num ≠ 0) :
    ofRatio negative num den = ofUnits negative (units num den) (unitExponent num den) := by
  rw [ofRatio, if_neg hn, units]
  generalize unitExponent num den = e
  extract_lets
  split
  next hs =>
  rw [hs]
  rfl

theorem ofRatio_zero : ofRatio negative 0 den = some (zero negative) := by
  rw [ofRatio, if_pos rfl]
  exact dif_pos ⟨by decide, by decide, by decide, by decide⟩

theorem ofUnits_eq_some (negative : Bool) {m : ℕ} (hm : m ≤ 2 * hiddenBit) (hl : -1074 ≤ e)
    (he : e ≤ 971) (htop : e = 971 → m < 2 * hiddenBit) (hn : hiddenBit ≤ m ∨ e = -1074) :
    ∃ y, ofUnits negative m e = some y ∧ y.value = m * 2 ^ e := by
  rcases hm.lt_or_eq with hm | rfl
  · obtain ⟨y, hy, hval⟩ := mk?_eq_some negative hm he hl hn
    exact ⟨y, by rw [ofUnits, if_neg hm.ne, hy], hval⟩
  · have he' : e + 1 ≤ 971 := by
      have := mt htop (lt_irrefl _)
      omega
    obtain ⟨y, hy, hval⟩ := mk?_eq_some negative (m := hiddenBit) (e := e + 1)
      (by decide) he' (by omega) (.inl le_rfl)
    refine ⟨y, by rw [ofUnits, if_pos rfl, hy], ?_⟩
    rw [hval, zpow_add_one₀ (by norm_num)]
    push_cast
    ring

/-- Below `overflow` the unit is that of a finite double, and the greatest one is not carried. -/
theorem unitExponent_le (hn : 0 < num) (hd : 0 < den) (hv : (num / den : ℚ) < overflow) :
    unitExponent num den ≤ 971 ∧
      (unitExponent num den = 971 → units num den < 2 * hiddenBit) := by
  obtain ⟨-, -, hfull⟩ := unitExponent_spec hn hd
  have hpow (k : ℕ) : (2 : ℚ) ^ ((970 + k : ℕ) : ℤ) = 2 ^ k * 2 ^ 970 := by
    rw [zpow_natCast, pow_add, mul_comm]
  have hp : (0 : ℚ) < 2 ^ 970 := by positivity
  unfold overflow at hv
  constructor
  · by_contra! he
    have hf := hfull.resolve_right (by omega)
    have : (2 : ℚ) ^ ((970 + 2 : ℕ) : ℤ) ≤ 2 ^ unitExponent num den :=
      zpow_le_zpow_right₀ (by norm_num) (by push_cast; omega)
    rw [hpow] at this
    generalize (2 : ℚ) ^ 970 = p at *
    linarith
  · intro he
    have hlt : units num den ≤ 2 ^ 53 - 1 := by
      refine units_le hd ?_
      rw [he, show (971 : ℤ) = ((970 + 1 : ℕ) : ℤ) from rfl, hpow]
      refine hv.trans_le ?_
      generalize (2 : ℚ) ^ 970 = p
      push_cast
      linarith
    rw [hiddenBit]
    omega

/-- A ratio that does not overflow has a nearest double. -/
theorem ofRatio_rounds (negative : Bool) (hd : 0 < den) (hv : (num / den : ℚ) < overflow) :
    ∃ y, ofRatio negative num den = some y ∧ Rounds (num / den) y := by
  rcases Nat.eq_zero_or_pos num with rfl | hn
  · refine ⟨_, ofRatio_zero, fun z _ ↦ ?_, fun z hz ↦ ?_⟩
    · simpa [zero, value] using z.value_nonneg
    · simpa [zero, value] using hz
  · obtain ⟨hl, hlt, hfull⟩ := unitExponent_spec hn hd
    obtain ⟨he, htop⟩ := unitExponent_le hn hd hv
    have hm : units num den ≤ 2 ^ 53 :=
      units_le hd (hlt.trans (mul_lt_mul_of_pos_right (by norm_num) (by positivity)))
    have hfull' : 2 ^ 52 ≤ units num den ∨ unitExponent num den = -1074 :=
      hfull.imp_left fun h ↦ le_units hd (by push_cast; exact h)
    obtain ⟨y, hy, hval⟩ := ofUnits_eq_some negative (m := units num den)
      (by rwa [hiddenBit]) hl he htop (by rwa [hiddenBit])
    exact ⟨y, by rw [ofRatio_eq hn.ne', hy], rounds_of_units hn hd hval⟩

theorem value_lt_overflow (x : Binary64) : x.value < overflow := by
  have hm : (x.mantissa : ℚ) ≤ 2 ^ 53 - 1 := by
    have : x.mantissa + 1 ≤ 2 ^ 53 := x.mantissa_lt
    have : (x.mantissa : ℚ) + 1 ≤ 2 ^ 53 := by exact_mod_cast this
    linarith
  have hp : (2 : ℚ) ^ x.exponent ≤ 2 ^ ((970 + 1 : ℕ) : ℤ) :=
    zpow_le_zpow_right₀ (by norm_num) (by have := x.exponent_le; push_cast; omega)
  rw [zpow_natCast, pow_succ] at hp
  calc x.value ≤ (2 ^ 53 - 1) * (2 ^ 970 * 2) :=
        mul_le_mul hm hp (by positivity) (by norm_num)
    _ < overflow := by
        have : (0 : ℚ) < 2 ^ 970 := by positivity
        rw [overflow]
        generalize (2 : ℚ) ^ 970 = p at *
        linarith

theorem exists_value_eq_one : ∃ x : Binary64, x.value = 1 :=
  ⟨⟨false, hiddenBit, -52, by decide, by decide, by decide⟩, by norm_num [value, hiddenBit]⟩

theorem ofNat_rounds (hn : (n : ℚ) < overflow) : ∃ y, ofNat n = some y ∧ Rounds n y := by
  have : ∃ y, ofRatio false n 1 = some y ∧ Rounds (n / (1 : ℕ)) y :=
    ofRatio_rounds false one_pos (by simpa using hn)
  simpa only [ofNat, Nat.cast_one, div_one] using this

theorem mul_isSome (h : x.value * y.value < overflow) : (x.mul y).isSome = true := by
  have hs := scale_ratio (x.mantissa * y.mantissa) 1 (x.exponent + y.exponent)
  have hd : 0 < (scale (x.mantissa * y.mantissa) 1 (x.exponent + y.exponent)).2 :=
    scale_den_pos one_pos
  have hv : x.value * y.value = ((x.mantissa * y.mantissa : ℕ) : ℚ) / (1 : ℕ) *
      2 ^ (x.exponent + y.exponent) := by
    rw [value, value, zpow_add₀ (by norm_num)]
    push_cast
    ring
  rw [hv, ← hs] at h
  obtain ⟨z, hz, -⟩ := ofRatio_rounds x.negative hd h
  have : x.mul y = some z := hz
  simp [this]

theorem div_isSome (h : 1 ≤ y.value) : (x.div y).isSome = true := by
  have hm : 0 < y.mantissa := Nat.pos_of_ne_zero fun hm ↦ by
    simp only [value, hm, Nat.cast_zero, zero_mul] at h
    linarith
  have hs := scale_ratio x.mantissa y.mantissa (x.exponent - y.exponent)
  have hd : 0 < (scale x.mantissa y.mantissa (x.exponent - y.exponent)).2 := scale_den_pos hm
  have hv : x.value / y.value = (x.mantissa : ℚ) / y.mantissa * 2 ^ (x.exponent - y.exponent) := by
    rw [value, value, zpow_sub₀ (by norm_num), mul_div_mul_comm]
  have hlt : x.value / y.value < overflow :=
    (div_le_self x.value_nonneg h).trans_lt x.value_lt_overflow
  rw [hv, ← hs] at hlt
  obtain ⟨z, hz, -⟩ := ofRatio_rounds x.negative hd hlt
  have : x.div y = some z := hz
  simp [this]

theorem pow10_rounds (hk : k ≤ 308) : ∃ y, pow10 k = some y ∧ Rounds (10 ^ k) y := by
  have h₃₁ : (10 : ℚ) ^ 31 ≤ 2 ^ 103 := by norm_num
  have h₂₉ : (10 : ℚ) ^ 29 < (2 ^ 54 - 1) * 2 ^ 43 := by norm_num
  have hlt : (10 : ℚ) ^ k < overflow := by
    calc (10 : ℚ) ^ k ≤ 10 ^ (31 * 9 + 29) := pow_le_pow_right₀ (by norm_num) hk
      _ = (10 ^ 31) ^ 9 * 10 ^ 29 := by rw [pow_add, pow_mul]
      _ < (2 ^ 103) ^ 9 * ((2 ^ 54 - 1) * 2 ^ 43) :=
          mul_lt_mul' (pow_le_pow_left₀ (by positivity) h₃₁ 9) h₂₉ (by positivity) (by positivity)
      _ = overflow := by rw [overflow, mul_left_comm, ← pow_mul, ← pow_add]
  obtain ⟨y, hy, hr⟩ := ofNat_rounds (n := 10 ^ k) (by exact_mod_cast hlt)
  exact ⟨y, hy, by exact_mod_cast hr⟩

theorem divPow10_isSome (x : Binary64) (k : ℕ) : (x.divPow10 k).isSome = true := by
  have hp {k : ℕ} (hk : k ≤ 308) : ∃ y, pow10 k = some y ∧ 1 ≤ y.value := by
    obtain ⟨y, hy, hr⟩ := pow10_rounds hk
    obtain ⟨o, ho⟩ := exists_value_eq_one
    exact ⟨y, hy, ho ▸ hr.lower o (ho ▸ one_le_pow₀ (by norm_num))⟩
  induction k using Nat.strong_induction_on generalizing x with
  | _ k ih =>
    rw [divPow10]
    split
    · rfl
    · split
      · next hk =>
        obtain ⟨y, hy, h1⟩ := hp hk
        rw [hy]
        exact div_isSome h1
      · next hk =>
        obtain ⟨y, hy, h1⟩ := hp le_rfl
        obtain ⟨z, hz⟩ := Option.isSome_iff_exists.1 (div_isSome (x := x) h1)
        rw [hy, Option.bind_some, hz]
        exact ih (k - 308) (by omega) z

theorem ofScientific_nonpos (hn : (n : ℚ) < overflow) (he : e ≤ 0) :
    (ofScientific n e).isSome = true := by
  obtain ⟨x, hx, -⟩ := ofNat_rounds hn
  rw [ofScientific, hx, Option.bind_some]
  split
  · next h =>
    obtain ⟨y, hy, hr⟩ := pow10_rounds (k := 0) (by decide)
    obtain ⟨o, ho⟩ := exists_value_eq_one
    have hle : y.value ≤ 1 := ho ▸ hr.upper o (by rw [ho, pow_zero])
    rw [show e.toNat = 0 by omega, mulPow10, if_pos (by decide), hy]
    exact mul_isSome ((mul_le_of_le_one_right x.value_nonneg hle).trans_lt x.value_lt_overflow)
  · exact divPow10_isSome _ _

end JobEngine.Binary64
