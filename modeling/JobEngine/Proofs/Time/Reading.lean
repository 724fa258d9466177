import JobEngine.Proofs.Text.Digits
import JobEngine.Time.Reader

namespace JobEngine

open Text

variable {cs rest : List Char} {c : Char} {n width : ℕ}

namespace Text

theorem isBlank_of_isDigit (h : isDigit c = true) : isBlank c = false := by
  simp only [isDigit, Bool.and_eq_true, decide_eq_true_eq] at h
  have h₁ : 48 ≤ c.toNat := h.1
  have h₂ : c.toNat ≤ 57 := h.2
  simp only [isBlank, Bool.or_eq_false_iff, Bool.and_eq_false_iff, decide_eq_false_iff_not]
  omega

theorem skipBlanks_cons (h : isBlank c = false) : skipBlanks (c :: rest) = c :: rest := by
  rw [skipBlanks, List.dropWhile_cons_of_neg (by simp [h])]

theorem skipBlanks_padded (width n : ℕ) (rest : List Char) :
    skipBlanks (padded width n ++ rest) = padded width n ++ rest := by
  obtain ⟨c, cs, hc⟩ := List.exists_cons_of_ne_nil (padded_ne_nil width n)
  rw [hc, List.cons_append]
  exact skipBlanks_cons (isBlank_of_isDigit (isDigit_padded width n c (by simp [hc])))

end Text

namespace Date

theorem month_le (d : Date) : d.month ≤ 12 := by
  have h := d.day_pos.trans d.day_le
  unfold daysInMonth at h
  split_ifs at h <;> omega

theorem day_lt (d : Date) : d.day < 100 := by
  have h := d.day_le
  unfold daysInMonth at h
  split_ifs at h <;> omega

theorem mk?_self (d : Date) : mk? d.year d.month d.day = some d :=
  dif_pos ⟨⟨d.year_ge, d.year_le⟩, d.day_pos, d.day_le⟩

theorem scanPair_padded (hn : n < 100) (rest : List Char) :
    scanPair (padded 2 n ++ rest) = some (n, rest) := by
  rw [scanPair, skipBlanks_padded]
  exact scanNat_padded (by decide) hn

theorem expect_self (c : Char) (rest : List Char) : expect c (c :: rest) = some rest := if_pos rfl

theorem scanYear_yearText (year : ℤ) (hr : NoDigit rest) :
    scanYear (Instant.yearText year ++ rest) = some (year, rest) := by
  unfold Instant.yearText
  split
  · next h =>
    have hs : scanNat 4 (padded 4 year.toNat ++ rest) = some (year.toNat, rest) :=
      scanNat_padded (by decide) (by omega)
    obtain ⟨c, cs, hc⟩ := List.exists_cons_of_ne_nil (padded_ne_nil 4 year.toNat)
    have hd := isDigit_padded 4 year.toNat c (by simp [hc])
    rw [scanYear, skipBlanks_padded]
    rw [hc, List.cons_append] at hs ⊢
    split
    · next h => cases h; exact absurd hd (by decide)
    · next h => cases h; exact absurd hd (by decide)
    · rw [hs, Option.map_some]
      simp only [Int.toNat_of_nonneg h.1]
  · next h =>
    have hs : scanLongNat (padded 4 year.natAbs ++ rest) = some (year.natAbs, rest) :=
      scanLongNat_padded hr
    by_cases hneg : year < 0
    · have hy : -(year.natAbs : ℤ) = year := by omega
      rw [if_pos hneg, List.cons_append, scanYear, skipBlanks_cons (by decide)]
      simp only [hs, Option.map_some, hy]
    · have hy : (year.natAbs : ℤ) = year := by omega
      rw [if_neg hneg, List.cons_append, scanYear, skipBlanks_cons (by decide)]
      simp only [hs, Option.map_some, hy]

theorem noDigit_hyphen (rest : List Char) : NoDigit ('-' :: rest) := noDigit_cons (by decide)

theorem skipBlanks_hyphen (rest : List Char) : skipBlanks ('-' :: rest) = '-' :: rest :=
  skipBlanks_cons (by decide)

theorem scan_text (spaced : Bool) (d : Date) (rest : List Char) :
    scan spaced (Instant.yearText d.year ++ '-' :: (padded 2 d.month ++ '-' ::
      (padded 2 d.day ++ rest))) = some (d, rest) := by
  have hm := d.month_le
  have hd := d.day_lt
  simp only [scan, ite_self, Option.bind_eq_bind, scanYear_yearText _ (noDigit_hyphen _),
    Option.bind_some, skipBlanks_hyphen, expect_self, scanPair_padded (show d.month < 100 by omega),
    scanPair_padded hd, mk?_self]
  rfl

end Date

namespace Instant

variable {t : Instant}

theorem mk?_self (t : Instant) : mk? t.date t.second t.nano = some t :=
  dif_pos ⟨t.second_lt, t.nano_lt, t.leap⟩

theorem scanFraction_padded (hw : 0 < width) (hw' : width ≤ 9) (hn : n < 10 ^ width)
    (hr : NoDigit rest) : scanFraction ('.' :: (padded width n ++ rest)) =
      some (n * 10 ^ (9 - width), rest) := by
  have hl := length_padded hw hn
  have ht : (padded width n).take 9 = padded width n := List.take_of_length_le (by omega)
  simp only [scanFraction, takeWhile_isDigit (isDigit_padded width n) hr, padded_ne_nil, if_false,
    ht, digitsValue_padded, hl, List.drop_left' hl, Nat.pow_eq]

theorem scanFraction_text (hn : n < nanosPerSecond) (hr : NoDigit rest)
    (hdot : ∀ c ∈ rest.head?, c ≠ '.') :
    scanFraction (fractionText n ++ rest) = some (n, rest) := by
  rw [nanosPerSecond] at hn
  unfold fractionText
  split_ifs with h₀ h₃ h₆
  · rw [h₀, List.nil_append]
    cases rest with
    | nil => rfl
    | cons c rest =>
      rw [scanFraction]
      rintro cs ⟨⟩
      exact hdot '.' rfl rfl
  · rw [List.cons_append, scanFraction_padded (by decide) (by decide) (by omega) hr]
    simp only [Option.some.injEq, Prod.mk.injEq, and_true]
    omega
  · rw [List.cons_append, scanFraction_padded (by decide) (by decide) (by omega) hr]
    simp only [Option.some.injEq, Prod.mk.injEq, and_true]
    omega
  · rw [List.cons_append, scanFraction_padded (by decide) (by decide) (by omega) hr]
    simp

theorem skipBlanks_colon (rest : List Char) : skipBlanks (':' :: rest) = ':' :: rest :=
  skipBlanks_cons (by decide)

/-- Within a leap second the clock shows second 60. -/
theorem shown_second (t : Instant) :
    (t.nano < nanosPerSecond ∧ t.second % 60 + t.nano / nanosPerSecond = t.second % 60 ∧
      t.nano % nanosPerSecond = t.nano) ∨
    (t.second % 60 = 59 ∧ t.second % 60 + t.nano / nanosPerSecond = 60 ∧
      t.nano % nanosPerSecond + nanosPerSecond = t.nano) := by
  have hn := t.nano_lt
  have hl := t.leap
  rw [nanosPerSecond] at *
  omega

theorem scanTime_text (t : Instant) (hr : NoDigit rest) (hdot : ∀ c ∈ rest.head?, c ≠ '.') :
    scanTime (padded 2 (t.second / 3600) ++ ':' :: (padded 2 (t.second / 60 % 60) ++
      ':' :: (padded 2 (t.second % 60 + t.nano / nanosPerSecond) ++
        (fractionText (t.nano % nanosPerSecond) ++ rest)))) =
      some ((t.second, t.nano), rest) := by
  have hs := t.second_lt
  have hq : t.second % 60 + t.nano / nanosPerSecond ≤ 60 := by
    rcases t.shown_second with ⟨-, h, -⟩ | ⟨-, h, -⟩ <;> omega
  have h₁ := Date.scanPair_padded (show t.second / 3600 < 100 by omega)
  have h₂ := Date.scanPair_padded (show t.second / 60 % 60 < 100 by omega)
  have h₃ := Date.scanPair_padded (show t.second % 60 + t.nano / nanosPerSecond < 100 by omega)
  have hf := scanFraction_text (Nat.mod_lt t.nano (show 0 < nanosPerSecond by decide)) hr hdot
  simp only [scanTime, Option.bind_eq_bind, Option.bind_some, skipBlanks_colon, Date.expect_self,
    h₁, h₂, h₃, hf]
  rw [if_pos (by omega)]
  rcases t.shown_second with ⟨-, h, hm⟩ | ⟨h59, h, hm⟩
  · rw [h, hm, if_neg (by omega)]
    simp only [Option.pure_def, Option.some.injEq, Prod.mk.injEq, and_true]
    omega
  · rw [if_pos h, hm]
    simp only [Option.pure_def, Option.some.injEq, Prod.mk.injEq, and_true]
    omega

/-- An instant is read as it was written. -/
theorem read?_text (t : Instant) : read? t.text = some t := by
  have hd := t.date.scan_text true ('T' :: (padded 2 (t.second / 3600) ++ ':' ::
    (padded 2 (t.second / 60 % 60) ++ ':' :: (padded 2 (t.second % 60 + t.nano / nanosPerSecond) ++
      (fractionText (t.nano % nanosPerSecond) ++ ['Z'])))))
  have hr : NoDigit ['Z'] := noDigit_cons (by decide)
  have ht := t.scanTime_text hr (by simp)
  have hc : t.text.toList = t.chars ['Z'] := String.toList_ofList
  have hz : skipBlanks ['Z'] = ['Z'] := skipBlanks_cons (by decide)
  have hn : skipBlanks [] = [] := rfl
  have ho : scanOffset ['Z'] = some (0, []) := rfl
  rw [read?, hc, chars]
  simp only [List.append_assoc, List.cons_append, hd, ht, hz, ho, Option.bind_eq_bind,
    Option.bind_some, true_or, if_true, hn, ofLocal?, mk?_self]

end Instant

end JobEngine
