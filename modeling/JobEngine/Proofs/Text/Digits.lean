import JobEngine.Text.Blank
import Mathlib.Algebra.Order.Ring.Nat

namespace JobEngine.Text

variable {cs rest : List Char} {n width limit : ℕ}

theorem isDigit_eq (c : Char) : isDigit c = c.isDigit := by
  rw [Bool.eq_iff_iff]
  simp [isDigit, Char.isDigit, Char.le_def]

/-- A text that does not go on with a digit. -/
def NoDigit (rest : List Char) : Prop := ∀ c ∈ rest.head?, isDigit c = false

theorem noDigit_nil : NoDigit [] := by simp [NoDigit]

theorem noDigit_cons {c : Char} (h : isDigit c = false) : NoDigit (c :: rest) := by
  simpa [NoDigit] using h

theorem eq_zero_of_isDigit {c : Char} (h : isDigit c = true) (h0 : c.toNat - 48 = 0) : c = '0' := by
  simp only [isDigit, Bool.and_eq_true, decide_eq_true_eq] at h
  have h₁ : 48 ≤ c.toNat := h.1
  exact Char.toNat_inj.1 (show c.toNat = 48 by omega)

theorem takeWhile_isDigit (hd : ∀ c ∈ cs, isDigit c = true) (hr : NoDigit rest) :
    (cs ++ rest).takeWhile isDigit = cs := by
  rw [List.takeWhile_append_of_pos hd]
  cases rest with
  | nil => simp
  | cons c rest => simp [hr c rfl]

theorem isDigit_repr (n : ℕ) : ∀ c ∈ (Nat.repr n).toList, isDigit c = true := by
  intro c hc
  rw [Nat.toList_repr] at hc
  rw [isDigit_eq]
  exact Nat.isDigit_of_mem_toDigits (by decide) (by decide) hc

theorem repr_ne_nil (n : ℕ) : (Nat.repr n).toList ≠ [] := by
  rw [Nat.toList_repr]
  exact Nat.toDigits_ne_nil

theorem length_repr_le (hw : 0 < width) : (Nat.repr n).toList.length ≤ width ↔ n < 10 ^ width := by
  rw [Nat.toList_repr]
  exact Nat.length_toDigits_le_iff (by decide) hw

/-- Only zero is written with a zero in front. -/
theorem head_repr (hn : 0 < n) : (Nat.repr n).toList.head? ≠ some '0' := by
  rw [Nat.toList_repr]
  induction n using Nat.strong_induction_on with
  | _ n ih =>
    rw [Nat.toDigits_eq_if (by decide)]
    split
    · next h =>
      simp only [List.head?_cons, ne_eq, Option.some.injEq]
      intro hc
      have := Nat.toNat_digitChar_of_lt_ten h
      rw [hc] at this
      simp at this
      omega
    · next h =>
      rw [List.head?_append, Option.or_of_isSome (List.isSome_head?.2 Nat.toDigits_ne_nil)]
      exact ih (n / 10) (by omega) (by omega)

theorem digitsValue_eq (cs : List Char) : digitsValue cs = Nat.ofDigitChars 10 cs 0 := by
  unfold digitsValue Nat.ofDigitChars
  congr 1
  funext n c
  rw [Nat.mul_comm]
  rfl

theorem digitsValue_repr (n : ℕ) : digitsValue (Nat.repr n).toList = n := by
  rw [digitsValue_eq, Nat.toList_repr, Nat.ofDigitChars_ten_toDigits]

theorem ofDigitChars_zeros (k : ℕ) (cs : List Char) :
    Nat.ofDigitChars 10 (List.replicate k '0' ++ cs) 0 = Nat.ofDigitChars 10 cs 0 := by
  induction k with
  | zero => simp
  | succ k ih => exact ih

theorem ofDigitChars_lt (hd : ∀ c ∈ cs, isDigit c = true) :
    Nat.ofDigitChars 10 cs 0 < 10 ^ cs.length := by
  induction cs with
  | nil => simp
  | cons c cs ih =>
    obtain ⟨hc, hd⟩ := List.forall_mem_cons.1 hd
    simp only [isDigit, Bool.and_eq_true, decide_eq_true_eq] at hc
    have h₉ : 10 * 0 + (c.toNat - 48) ≤ 9 := by
      have : c.toNat ≤ 57 := hc.2
      omega
    rw [Nat.ofDigitChars_cons, Nat.ofDigitChars_eq_ofDigitChars_zero, List.length_cons, pow_succ']
    calc _ ≤ 10 ^ cs.length * 9 + Nat.ofDigitChars 10 cs 0 :=
          Nat.add_le_add_right (Nat.mul_le_mul_left _ h₉) _
      _ < 10 * 10 ^ cs.length := by have := ih hd; omega

theorem digitsValue_padded (width n : ℕ) : digitsValue (padded width n) = n := by
  rw [digitsValue_eq, padded, ofDigitChars_zeros, ← digitsValue_eq, digitsValue_repr]

theorem isDigit_padded (width n : ℕ) : ∀ c ∈ padded width n, isDigit c = true := by
  intro c hc
  rcases List.mem_append.1 hc with hc | hc
  · rw [List.eq_of_mem_replicate hc]
    rfl
  · exact isDigit_repr n c hc

theorem padded_ne_nil (width n : ℕ) : padded width n ≠ [] :=
  List.append_ne_nil_of_right_ne_nil _ (repr_ne_nil n)

theorem length_padded (hw : 0 < width) (hn : n < 10 ^ width) : (padded width n).length = width := by
  have := (length_repr_le hw).2 hn
  simp only [padded, List.length_append, List.length_replicate]
  omega

theorem scanNat_append (hd : ∀ c ∈ cs, isDigit c = true) (hne : cs ≠ []) (hl : cs.length ≤ limit)
    (hr : cs.length = limit ∨ NoDigit rest) :
    scanNat limit (cs ++ rest) = some (digitsValue cs, rest) := by
  have ht : ((cs ++ rest).take limit).takeWhile isDigit = cs := by
    rw [List.take_append, List.take_of_length_le hl]
    refine takeWhile_isDigit hd ?_
    rcases hr with hr | hr
    · simpa [hr] using noDigit_nil
    · cases limit - cs.length with
      | zero => exact noDigit_nil
      | succ k => cases rest with
        | nil => exact noDigit_nil
        | cons c rest => exact hr
  simp [scanNat, ht, hne]

theorem scanNat_padded (hw : 0 < width) (hn : n < 10 ^ width) :
    scanNat width (padded width n ++ rest) = some (n, rest) := by
  have hl := length_padded hw hn
  rw [scanNat_append (isDigit_padded _ _) (padded_ne_nil _ _) hl.le (.inl hl), digitsValue_padded]

theorem scanLongNat_padded (hr : NoDigit rest) :
    scanLongNat (padded width n ++ rest) = some (n, rest) := by
  rw [scanLongNat, scanNat_append (isDigit_padded _ _) (padded_ne_nil _ _) (by simp) (.inr hr),
    digitsValue_padded]

end JobEngine.Text
