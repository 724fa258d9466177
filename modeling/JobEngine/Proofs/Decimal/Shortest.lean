import JobEngine.Decimal.Shortest
import JobEngine.Proofs.Decimal.Rounding
import JobEngine.Proofs.Text.Digits

namespace JobEngine.Binary64

variable {x y : Binary64} {d : Decimal} {p : ℤ} {c k n : ℕ}

def Decimal.value (d : Decimal) : ℚ := d.digits * 10 ^ d.exponent

/-- The upper end of the numbers that round to a double. -/
def ceiling (x : Binary64) : ℚ := (2 * x.mantissa + 1) * 2 ^ (x.exponent - 1)

theorem ceiling_nonneg (x : Binary64) : 0 ≤ x.ceiling := by
  unfold ceiling
  positivity

theorem onGrid_den_pos (n : ℕ) (e p : ℤ) : 0 < (onGrid n e p).2 := by
  have hs : 0 < (scale n 1 e).2 := scale_den_pos one_pos
  unfold onGrid
  dsimp only
  split
  · exact Nat.mul_pos hs (Nat.pow_pos (by decide))
  · exact hs

theorem onGrid_ratio (n : ℕ) (e p : ℤ) :
    ((onGrid n e p).1 : ℚ) / (onGrid n e p).2 = n * 2 ^ e / 10 ^ p := by
  have hs := scale_ratio n 1 e
  rw [Nat.cast_one, div_one] at hs
  unfold onGrid
  dsimp only
  split
  · next h =>
    have : (10 : ℚ) ^ p = 10 ^ p.toNat := by rw [← zpow_natCast, Int.toNat_of_nonneg h]
    rw [this, ← hs, Nat.pow_eq]
    push_cast
    rw [div_div]
  · next h =>
    have : (10 : ℚ) ^ p = (10 ^ (-p).toNat)⁻¹ := by
      rw [← zpow_natCast, Int.toNat_of_nonneg (by omega), zpow_neg, inv_inv]
    rw [this, ← hs, Nat.pow_eq, div_inv_eq_mul]
    push_cast
    rw [div_mul_eq_mul_div]

theorem le_of_staysBelow {closed : Bool} {e : ℤ} (h : staysBelow c (onGrid n e p) closed = true) :
    c * 10 ^ p ≤ (n : ℚ) * 2 ^ e := by
  have hle : c * (onGrid n e p).2 ≤ (onGrid n e p).1 := by
    cases closed
    · exact (of_decide_eq_true h).le
    · exact of_decide_eq_true h
  have hd : (0 : ℚ) < (onGrid n e p).2 := by exact_mod_cast onGrid_den_pos n e p
  rw [← le_div_iff₀ (by positivity), ← onGrid_ratio, le_div_iff₀ hd]
  exact_mod_cast hle

theorem candidate_spec (h : x.candidate p = some d) : d.exponent = p ∧ d.value ≤ x.ceiling := by
  simp only [candidate, Option.ite_none_right_eq_some, Option.some.injEq, Bool.and_eq_true] at h
  obtain ⟨⟨-, hb⟩, rfl⟩ := h
  refine ⟨rfl, (le_of_staysBelow hb).trans_eq ?_⟩
  unfold ceiling
  push_cast
  rfl

theorem search_spec (x : Binary64) (top : ℤ) (fuel n : ℕ) :
    (x.search top fuel n).value ≤ x.ceiling ∧
      top - (n + fuel : ℕ) ≤ (x.search top fuel n).exponent ∧
      ((x.search top fuel n).digits ≠ 0 →
        top - (n + fuel : ℕ) < (x.search top fuel n).exponent) := by
  induction fuel generalizing n with
  | zero =>
    refine ⟨?_, ?_, fun h ↦ absurd rfl h⟩
    · simpa [search, Decimal.value] using x.ceiling_nonneg
    · simp [search]
  | succ fuel ih =>
    rw [search]
    cases h : x.candidate (top - n) with
    | none => simpa [Nat.add_right_comm, Nat.add_assoc] using ih (n + 1)
    | some d =>
      obtain ⟨he, hv⟩ := candidate_spec h
      rw [Option.getD_some, he]
      exact ⟨hv, by omega, fun _ ↦ by omega⟩

theorem trim_spec (fuel : ℕ) (d : Decimal) :
    (d.trim fuel).value = d.value ∧ (d.trim fuel).digits ≤ d.digits ∧
      d.exponent ≤ (d.trim fuel).exponent := by
  induction fuel generalizing d with
  | zero => exact ⟨rfl, le_rfl, le_rfl⟩
  | succ fuel ih =>
    rw [Decimal.trim]
    split
    · next h =>
      obtain ⟨hv, hd, he⟩ := ih ⟨d.digits / 10, d.exponent + 1⟩
      refine ⟨hv.trans ?_, hd.trans (Nat.div_le_self _ _), ?_⟩
      · have hq : (d.digits : ℚ) = 10 * (d.digits / 10 : ℕ) := by
          exact_mod_cast (Nat.mul_div_cancel' (Nat.dvd_of_mod_eq_zero h.1)).symm
        rw [Decimal.value, Decimal.value, hq, zpow_add_one₀ (by norm_num)]
        ring
      · dsimp only at he
        omega
    · exact ⟨rfl, le_rfl, le_rfl⟩

theorem magnitude_eq (x : Binary64) :
    x.magnitude = ((Nat.repr ((onGrid x.mantissa x.exponent (-400)).1 /
      (onGrid x.mantissa x.exponent (-400)).2)).toList.length : ℤ) - 401 := by
  rw [magnitude]
  rfl

theorem magnitude_ge (x : Binary64) : -400 ≤ x.magnitude := by
  have := List.length_pos_iff.2 (Text.repr_ne_nil ((onGrid x.mantissa x.exponent (-400)).1 /
    (onGrid x.mantissa x.exponent (-400)).2))
  rw [magnitude_eq]
  omega

theorem value_lt_magnitude (x : Binary64) : x.value < 10 ^ (x.magnitude + 1) := by
  have hr := onGrid_ratio x.mantissa x.exponent (-400)
  have hd := onGrid_den_pos x.mantissa x.exponent (-400)
  rw [magnitude_eq]
  generalize onGrid x.mantissa x.exponent (-400) = r at *
  have hlt := (Text.length_repr_le (List.length_pos_iff.2 (Text.repr_ne_nil (r.1 / r.2)))).1 le_rfl
  generalize (Nat.repr (r.1 / r.2)).toList.length = l at *
  have hdq : (0 : ℚ) < r.2 := by exact_mod_cast hd
  have hq : (r.1 : ℚ) / r.2 < 10 ^ l := by
    rw [div_lt_iff₀ hdq]
    exact_mod_cast (Nat.div_lt_iff_lt_mul hd).1 hlt
  rw [hr, ← value, zpow_neg, div_inv_eq_mul, ← lt_div_iff₀ (by positivity)] at hq
  refine hq.trans_eq ?_
  rw [← zpow_natCast, ← zpow_sub₀ (by norm_num)]
  congr 1
  ring

theorem ceiling_le_value (hm : x.mantissa ≠ 0) : x.ceiling ≤ 3 / 2 * x.value := by
  have h1 : (1 : ℚ) ≤ x.mantissa := by exact_mod_cast Nat.pos_of_ne_zero hm
  have hp : (0 : ℚ) < 2 ^ x.exponent := by positivity
  rw [ceiling, value, zpow_sub_one₀ (by norm_num)]
  nlinarith

theorem search_lt (hm : x.mantissa ≠ 0) : (x.search x.magnitude 17 0).digits < 15 * 10 ^ 16 := by
  obtain ⟨hv, -, he⟩ := x.search_spec x.magnitude 17 0
  generalize x.search x.magnitude 17 0 = d at *
  rcases eq_or_ne d.digits 0 with h | h
  · rw [h]
    decide
  · have hp : (10 : ℚ) ^ (x.magnitude - 16) ≤ 10 ^ d.exponent :=
      zpow_le_zpow_right₀ (by norm_num) (by have := he h; push_cast at this; omega)
    have hlt :
        (d.digits : ℚ) * 10 ^ (x.magnitude - 16) < 15 * 10 ^ 16 * 10 ^ (x.magnitude - 16) := by
      calc (d.digits : ℚ) * 10 ^ (x.magnitude - 16) ≤ d.value := by unfold Decimal.value; gcongr
        _ ≤ x.ceiling := hv
        _ ≤ 3 / 2 * x.value := ceiling_le_value hm
        _ < 3 / 2 * 10 ^ (x.magnitude + 1) := by have := x.value_lt_magnitude; gcongr
        _ = 15 * 10 ^ 16 * 10 ^ (x.magnitude - 16) := by
          rw [show x.magnitude + 1 = x.magnitude - 16 + (17 : ℕ) by push_cast; ring,
            zpow_add₀ (by norm_num), zpow_natCast]
          ring
    have := lt_of_mul_lt_mul_right hlt (by positivity)
    exact_mod_cast this

theorem shortest_spec (x : Binary64) : x.shortest.value ≤ x.ceiling ∧
    x.shortest.digits < 15 * 10 ^ 16 ∧ -417 ≤ x.shortest.exponent := by
  rw [shortest]
  split
  · exact ⟨by simpa [Decimal.value] using x.ceiling_nonneg, by decide, by decide⟩
  · next hm =>
    obtain ⟨hv, he, -⟩ := x.search_spec x.magnitude 17 0
    obtain ⟨hv', hd', he'⟩ := trim_spec 20 (x.search x.magnitude 17 0)
    have := x.magnitude_ge
    refine ⟨hv'.trans_le hv, hd'.trans_lt (search_lt hm), ?_⟩
    push_cast at he
    omega

theorem exists_value_eq (hc : c < 2 ^ 53) (hk : k ≤ 971) : ∃ z : Binary64, z.value = c * 2 ^ k := by
  rcases Nat.eq_zero_or_pos c with rfl | hpos
  · exact ⟨zero false, by simp [zero, value]⟩
  · have hlog : c.log2 ≤ 52 := Nat.lt_succ_iff.1 ((Nat.log2_lt hpos.ne').2 hc)
    have hlow : 2 ^ 52 ≤ c * 2 ^ (52 - c.log2) := by
      calc 2 ^ 52 = 2 ^ c.log2 * 2 ^ (52 - c.log2) := by rw [← pow_add]; congr 1; omega
        _ ≤ c * 2 ^ (52 - c.log2) := Nat.mul_le_mul_right _ (Nat.log2_self_le hpos.ne')
    have hhigh : c * 2 ^ (52 - c.log2) < 2 ^ 53 := by
      calc c * 2 ^ (52 - c.log2) < 2 ^ (c.log2 + 1) * 2 ^ (52 - c.log2) :=
            Nat.mul_lt_mul_of_pos_right Nat.lt_log2_self (by positivity)
        _ = 2 ^ 53 := by rw [← pow_add]; congr 1; omega
    refine ⟨⟨false, c * 2 ^ (52 - c.log2), k - (52 - c.log2 : ℕ), hhigh, by omega, by omega,
      .inl hlow⟩, ?_⟩
    rw [value, zpow_sub₀ (by norm_num), zpow_natCast, zpow_natCast]
    push_cast
    field_simp

/-- `c` times the double next to `10 ^ k` does not overflow. -/
def Fits (c k : ℕ) : Prop := ∃ t, pow10 k = some t ∧ c * t.value < overflow

def fits (c k : ℕ) : Bool :=
  (pow10 k).any fun t ↦
    0 ≤ t.exponent && c * (t.mantissa * 2 ^ t.exponent.toNat) < 18014398509481983 * 2 ^ 970

def within (c k top : ℕ) : Bool := c * 10 ^ k ≤ top * 2 ^ 970

theorem fits_sound (h : fits c k = true) : Fits c k := by
  obtain ⟨t, ht, h⟩ := (Option.any_eq_true _ _).1 h
  simp only [Bool.and_eq_true, decide_eq_true_eq] at h
  obtain ⟨he, hlt⟩ := h
  refine ⟨t, ht, ?_⟩
  have hq : (c : ℚ) * (t.mantissa * 2 ^ t.exponent.toNat) < 18014398509481983 * 2 ^ 970 := by
    exact_mod_cast hlt
  rw [← zpow_natCast, Int.toNat_of_nonneg he] at hq
  rw [overflow, value]
  exact hq.trans_eq (by congr 1; norm_num)

theorem within_iff {top : ℕ} : within c k top = true ↔ (c : ℚ) * 10 ^ k ≤ top * 2 ^ 970 := by
  rw [within, decide_eq_true_eq]
  exact_mod_cast Iff.rfl

theorem within_mono {top : ℕ} (h : within n k top = true) {m l : ℕ} (hm : m ≤ n) (hl : l ≤ k) :
    within m l top = true := by
  rw [within_iff] at h ⊢
  refine le_trans ?_ h
  gcongr
  norm_num

/-- Digits that are at most a double whose product fits have a product. -/
theorem ofScientific_of_fits (hn : n ≤ c) (hc : ∃ z : Binary64, z.value = c) (hk : k ≤ 308)
    (hf : Fits c k) : (ofScientific n k).isSome = true := by
  obtain ⟨z, hz⟩ := hc
  obtain ⟨t, ht, hlt⟩ := hf
  have hnz : (n : ℚ) ≤ z.value := hz ▸ (by exact_mod_cast hn)
  obtain ⟨y, hy, hr⟩ := ofNat_rounds (hnz.trans_lt z.value_lt_overflow)
  have hyt : y.value * t.value < overflow :=
    (mul_le_mul_of_nonneg_right (hz ▸ hr.upper z hnz) t.value_nonneg).trans_lt hlt
  rw [ofScientific, hy, Option.bind_some, if_pos (by omega), Int.toNat_natCast, mulPow10, if_pos hk,
    ht]
  exact mul_isSome hyt

theorem ofScientific_zero (k : ℕ) : (ofScientific 0 k).isSome = true := by
  have h0 : ofNat 0 = some (zero false) := ofRatio_zero
  rw [ofScientific, h0, Option.bind_some, if_pos (by omega), Int.toNat_natCast, mulPow10]
  split
  · next hk =>
    obtain ⟨y, hy, -⟩ := pow10_rounds hk
    rw [hy]
    refine mul_isSome ?_
    rw [show (zero false).value = 0 by simp [zero, value], zero_mul, overflow]
    norm_num
  · rfl

theorem fits_small (hk : k ≤ 290) : Fits (15 * 10 ^ 16) k := by
  obtain ⟨t, ht, hr⟩ := pow10_rounds (hk.trans (by decide))
  obtain ⟨z, hz⟩ := exists_value_eq (c := 1) (k := 965) (by decide) (by decide)
  have h₅₈ : (10 : ℚ) ^ 58 ≤ 2 ^ 193 := by norm_num
  have hle : (10 : ℚ) ^ k ≤ z.value := by
    calc (10 : ℚ) ^ k ≤ 10 ^ (58 * 5) := pow_le_pow_right₀ (by norm_num) hk
      _ = (10 ^ 58) ^ 5 := pow_mul _ _ _
      _ ≤ (2 ^ 193) ^ 5 := pow_le_pow_left₀ (by positivity) h₅₈ 5
      _ = z.value := by rw [hz, ← pow_mul, Nat.cast_one, one_mul]
  refine ⟨t, ht, ?_⟩
  calc ((15 * 10 ^ 16 : ℕ) : ℚ) * t.value ≤ (15 * 10 ^ 16 : ℕ) * 2 ^ 965 := by
        have := hr.upper z hle
        rw [hz, Nat.cast_one, one_mul] at this
        gcongr
    _ < (2 ^ 54 - 1) * 2 ^ 5 * 2 ^ 965 := by
        gcongr
        norm_num
    _ = overflow := by rw [overflow, mul_assoc, ← pow_add]

/-- The most digits that may stand at `10 ^ k`. -/
def room (k : ℕ) : ℕ := 18014398509481983 * 2 ^ 970 / 10 ^ k

theorem le_room (h : within n k 18014398509481983 = true) : n ≤ room k :=
  (Nat.le_div_iff_mul_le (Nat.pow_pos (by decide))).2 (of_decide_eq_true h)

theorem fits_great :
    ∀ i < 16, room (293 + i) < 2 ^ 53 ∧ fits (room (293 + i)) (293 + i) = true := by
  decide +kernel

theorem ceiling_below (h : ¬ (x.mantissa = 9007199254740991 ∧ x.exponent = 971)) :
    x.ceiling ≤ (18014398509481981 : ℕ) * 2 ^ 970 := by
  have hm : x.mantissa < 2 ^ 53 := x.mantissa_lt
  rcases x.exponent_le.lt_or_eq with he | he
  · have hp : (2 : ℚ) ^ (x.exponent - 1) ≤ 2 ^ (969 : ℕ) := by
      rw [← zpow_natCast]
      exact zpow_le_zpow_right₀ (by norm_num) (by push_cast; omega)
    have hq : (2 * x.mantissa + 1 : ℚ) ≤ (18014398509481981 : ℕ) * 2 := by
      exact_mod_cast (show 2 * x.mantissa + 1 ≤ 18014398509481981 * 2 by omega)
    calc x.ceiling ≤ (18014398509481981 : ℕ) * 2 * 2 ^ 969 :=
          mul_le_mul hq hp (by positivity) (by positivity)
      _ = (18014398509481981 : ℕ) * 2 ^ 970 := by rw [mul_assoc, ← pow_succ' 2 969]
  · have hq : (2 * x.mantissa + 1 : ℚ) ≤ (18014398509481981 : ℕ) := by
      exact_mod_cast (show 2 * x.mantissa + 1 ≤ 18014398509481981 by omega)
    rw [ceiling, he, show (971 : ℤ) - 1 = (970 : ℕ) by norm_num, zpow_natCast]
    gcongr

theorem ceiling_le (x : Binary64) : x.ceiling ≤ (18014398509481983 : ℕ) * 2 ^ 970 := by
  by_cases h : x.mantissa = 9007199254740991 ∧ x.exponent = 971
  · rw [ceiling, h.1, h.2, show (971 : ℤ) - 1 = (970 : ℕ) by norm_num, zpow_natCast]
    gcongr
    norm_num
  · refine (ceiling_below h).trans ?_
    gcongr
    norm_num

def spans (x : Binary64) (k : ℕ) : Bool :=
  let r := onGrid x.mantissa x.exponent (-400)
  10 ^ k ≤ r.1 / r.2 && r.1 / r.2 < 10 ^ (k + 1)

theorem magnitude_of_spans (hk : 0 < k) (h : x.spans k = true) : x.magnitude = k - 400 := by
  simp only [spans, Bool.and_eq_true, decide_eq_true_eq] at h
  have hlow := mt (Text.length_repr_le hk).1 (not_lt.2 h.1)
  have hhigh := (Text.length_repr_le (Nat.succ_pos k)).2 h.2
  rw [magnitude_eq]
  omega

theorem shortest_top (h : x.mantissa = 9007199254740991 ∧ x.exponent = 971) :
    x.shortest = ⟨17976931348623157, 292⟩ := by
  have hm : x.magnitude = 308 := by
    refine magnitude_of_spans (k := 708) (by decide) ?_
    rw [spans, h.1, h.2]
    decide +kernel
  have hs : ∀ negative, (search ⟨negative, 9007199254740991, 971, by decide, by decide,
      by decide⟩ 308 17 0).trim 20 = ⟨17976931348623157, 292⟩ := by decide +kernel
  rw [shortest, if_neg (by rw [h.1]; decide), hm]
  obtain ⟨negative, mantissa, exponent, _, _, _⟩ := x
  obtain ⟨rfl, rfl⟩ := h
  exact hs negative

/-- Below the greatest double the digits at `10 ^ 292` do not reach its own. -/
theorem not_within_292 : within 17976931348623157 292 18014398509481981 = false := by
  decide +kernel

theorem not_within_309 : within 1 309 18014398509481983 = false := by
  decide +kernel

theorem within_shortest {top : ℕ} (hk : x.shortest.exponent = k)
    (ht : x.ceiling ≤ top * 2 ^ 970) : within x.shortest.digits k top = true := by
  have hv := x.shortest_spec.1
  rw [Decimal.value, hk, zpow_natCast] at hv
  exact within_iff.2 (hv.trans ht)

theorem shortest_exponent_lt (h : x.shortest.digits ≠ 0) : x.shortest.exponent < 309 := by
  by_contra! he
  obtain ⟨k, hk⟩ := Int.eq_ofNat_of_zero_le (by omega : 0 ≤ x.shortest.exponent)
  have := within_mono (within_shortest hk x.ceiling_le) (Nat.pos_of_ne_zero h)
    (by omega : 309 ≤ k)
  rw [not_within_309] at this
  cases this

/-- The digits of a double fit its power of ten. Only at `10 ^ 292` some digits would not, those
just above the digits of the greatest double. -/
theorem ofScientific_shortest (h : 0 ≤ x.shortest.exponent) :
    (ofScientific x.shortest.digits x.shortest.exponent).isSome = true := by
  obtain ⟨-, hd, -⟩ := x.shortest_spec
  obtain ⟨k, hk⟩ := Int.eq_ofNat_of_zero_le h
  rcases eq_or_ne x.shortest.digits 0 with h0 | h0
  · rw [h0, hk]
    exact ofScientific_zero k
  have hlt := shortest_exponent_lt h0
  have hc : ∃ z : Binary64, z.value = (15 * 10 ^ 16 : ℕ) := by
    obtain ⟨z, hz⟩ := exists_value_eq (c := 2288818359375) (k := 16) (by decide) (by decide)
    exact ⟨z, hz.trans (by norm_num)⟩
  rw [hk]
  -- up to 290 any digits fit; from 293 on, those of a double have fewer than 53 bits
  rcases Nat.lt_or_ge k 291 with h₁ | h₁
  · exact ofScientific_of_fits hd.le hc (by omega) (fits_small (by omega))
  rcases Nat.lt_or_ge k 293 with h₂ | h₂
  · obtain rfl | rfl : k = 291 ∨ k = 292 := by omega
    · exact ofScientific_of_fits hd.le hc (by omega) (fits_sound (by decide +kernel))
    -- only the greatest double has digits that leave no room for the rounding
    · by_cases htop : x.mantissa = 9007199254740991 ∧ x.exponent = 971
      · rw [shortest_top htop]
        decide +kernel
      · have hn : x.shortest.digits ≤ 17976931348623156 := by
          by_contra! hn
          exact absurd (within_mono (within_shortest hk (ceiling_below htop)) hn le_rfl)
            (by rw [not_within_292]; decide)
        obtain ⟨z, hz⟩ := exists_value_eq (c := 4494232837155789) (k := 2) (by decide) (by decide)
        exact ofScientific_of_fits hn ⟨z, hz.trans (by norm_num)⟩ (by omega)
          (fits_sound (by decide +kernel))
  · obtain ⟨i, rfl⟩ := Nat.exists_eq_add_of_le h₂
    obtain ⟨hr, hf⟩ := fits_great i (by omega)
    obtain ⟨z, hz⟩ := exists_value_eq hr (k := 0) (by decide)
    have hle := le_room (within_shortest hk x.ceiling_le)
    exact ofScientific_of_fits hle ⟨z, hz.trans (by simp)⟩ (by omega) (fits_sound hf)

end JobEngine.Binary64
