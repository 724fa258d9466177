import JobEngine.Json.Printer
import JobEngine.Json.Token
import JobEngine.Proofs.Decimal.Shortest
import JobEngine.Proofs.Text.Digits

namespace JobEngine

namespace Token

open Text

variable {cs ds rest : List Char} {n : ℕ}

def values (cs : List Char) : List ℕ := cs.map fun c ↦ c.toNat - 48

/-- A text that does not go on with a character of a number. -/
def Stops (rest : List Char) : Prop :=
  ∀ c ∈ rest.head?, isDigit c = false ∧ c ≠ '.' ∧ c ≠ 'e' ∧ c ≠ 'E'

theorem Stops.noDigit (h : Stops rest) : NoDigit rest := fun c hc ↦ (h c hc).1

theorem stops_nil : Stops [] := by simp [Stops]

theorem scanDigits_append (hd : ∀ c ∈ cs, isDigit c = true) (hr : NoDigit rest) :
    scanDigits (cs ++ rest) = (values cs, rest) := by
  induction cs with
  | nil =>
    cases rest with
    | nil => rfl
    | cons c rest => simp [scanDigits, hr c rfl, values]
  | cons c cs ih =>
    obtain ⟨hc, hd⟩ := List.forall_mem_cons.1 hd
    rw [List.cons_append, scanDigits, if_pos hc, ih hd]
    rfl

theorem accumulate_values (h : Nat.ofDigitChars 10 cs n < UInt64.size) :
    accumulate n (values cs) = (Nat.ofDigitChars 10 cs n, []) := by
  induction cs generalizing n with
  | nil => rfl
  | cons c cs ih =>
    rw [Nat.ofDigitChars_cons] at h ⊢
    have hle : 10 * n + (c.toNat - 48) ≤ Nat.ofDigitChars 10 cs (10 * n + (c.toNat - 48)) := by
      rw [Nat.ofDigitChars_eq_ofDigitChars_zero]
      exact (Nat.le_mul_of_pos_left _ (by positivity)).trans (Nat.le_add_right _ _)
    rw [values, List.map_cons, accumulate, Nat.mul_comm n, if_pos (hle.trans_lt h)]
    exact ih h

theorem accumulate_lt (hn : n < UInt64.size) (ds : List ℕ) :
    (accumulate n ds).1 < UInt64.size ∧ (accumulate n ds).2.length ≤ ds.length := by
  induction ds generalizing n with
  | nil => exact ⟨hn, le_rfl⟩
  | cons d ds ih =>
    rw [accumulate]
    split
    · next h => exact ⟨(ih h).1, (ih h).2.trans (Nat.le_succ _)⟩
    · exact ⟨hn, le_rfl⟩

/-- The parts of a number literal. -/
structure Spelling where
  negative : Bool
  whole : List Char
  fraction : Option (List Char)
  exponent : Option (Bool × List Char)

namespace Spelling

def fractionText (s : Spelling) : List Char := (s.fraction.map ('.' :: ·)).getD []

def exponentText (s : Spelling) : List Char :=
  (s.exponent.map fun e ↦ 'e' :: (if e.1 then '-' else '+') :: e.2).getD []

def text (s : Spelling) : List Char :=
  (if s.negative then ['-'] else []) ++ (s.whole ++ (s.fractionText ++ s.exponentText))

def literal (s : Spelling) : Literal :=
  ⟨s.negative, values s.whole, s.fraction.map values, s.exponent.map fun e ↦ (e.1, values e.2)⟩

structure Valid (s : Spelling) : Prop where
  whole : ∀ c ∈ s.whole, isDigit c = true
  whole_ne_nil : s.whole ≠ []
  zero : s.whole.head? = some '0' → s.whole = ['0']
  fraction : ∀ ds ∈ s.fraction, ds ≠ [] ∧ ∀ c ∈ ds, isDigit c = true
  exponent : ∀ e ∈ s.exponent, e.2 ≠ [] ∧ ∀ c ∈ e.2, isDigit c = true

variable {s : Spelling}

theorem exists_values (h : ds ≠ [] ∧ ∀ c ∈ ds, isDigit c = true) (hr : NoDigit rest) :
    ∃ d vs, values ds = d :: vs ∧ scanDigits (ds ++ rest) = (d :: vs, rest) := by
  obtain ⟨c, cs, rfl⟩ := List.exists_cons_of_ne_nil h.1
  exact ⟨_, values cs, rfl, scanDigits_append h.2 hr⟩

theorem exponentText_noDigit (hr : Stops rest) : NoDigit (s.exponentText ++ rest) := by
  rw [exponentText]
  cases s.exponent with
  | none => exact hr.noDigit
  | some e => exact noDigit_cons (by decide)

theorem fractionText_noDigit (hr : Stops rest) :
    NoDigit (s.fractionText ++ (s.exponentText ++ rest)) := by
  rw [fractionText]
  cases s.fraction with
  | none => exact exponentText_noDigit hr
  | some ds => exact noDigit_cons (by decide)

theorem scanExponent_append (hv : s.Valid) (hr : Stops rest) :
    scanExponent (s.exponentText ++ rest) =
      some (s.exponent.map fun e ↦ (e.1, values e.2), rest) := by
  rw [exponentText]
  cases he : s.exponent with
  | none =>
    cases rest with
    | nil => rfl
    | cons c rest =>
      obtain ⟨-, -, h₁, h₂⟩ := hr c rfl
      simp [scanExponent, h₁, h₂]
  | some e =>
    obtain ⟨negative, ds⟩ := e
    obtain ⟨d, vs, hds, hs⟩ := exists_values (hv.exponent _ he) hr.noDigit
    cases negative <;>
      simp only [Option.map_some, Option.getD_some, Bool.false_eq_true, if_true, if_false,
        List.cons_append, scanExponent, true_or, hs, hds]

theorem scanFraction_append (hv : s.Valid) (hr : Stops rest) :
    scanFraction (s.fractionText ++ (s.exponentText ++ rest)) =
      some (s.fraction.map values, s.exponentText ++ rest) := by
  rw [fractionText]
  cases hf : s.fraction with
  | none =>
    have hdot : ∀ c ∈ (s.exponentText ++ rest).head?, c ≠ '.' := by
      rw [exponentText]
      cases s.exponent with
      | none => exact fun c hc ↦ (hr c hc).2.1
      | some e => simp
    generalize s.exponentText ++ rest = cs at hdot
    cases cs with
    | nil => rfl
    | cons c cs =>
      rw [Option.map_none, Option.getD_none, List.nil_append, scanFraction]
      · rfl
      · rintro rest ⟨⟩
        exact hdot '.' rfl rfl
  | some ds =>
    obtain ⟨d, vs, hds, hs⟩ := exists_values (hv.fraction _ hf) (exponentText_noDigit (s := s) hr)
    simp only [Option.map_some, Option.getD_some, List.cons_append, scanFraction, hs, hds]

theorem Valid.whole_ne_minus (hv : s.Valid) (cs rest : List Char) :
    s.whole ++ cs ≠ '-' :: rest := by
  obtain ⟨c, ds, hc⟩ := List.exists_cons_of_ne_nil hv.whole_ne_nil
  rw [hc, List.cons_append]
  rintro ⟨⟩
  exact absurd (hv.whole '-' (by simp [hc])) (by decide)

theorem values_cons (hv : s.Valid) :
    ∃ d vs, values s.whole = d :: vs ∧ (d = 0 → vs = []) := by
  obtain ⟨c, cs, hc⟩ := List.exists_cons_of_ne_nil hv.whole_ne_nil
  refine ⟨c.toNat - 48, values cs, by rw [hc]; rfl, fun h0 ↦ ?_⟩
  have h := hv.zero (by rw [hc, eq_zero_of_isDigit (hv.whole c (by simp [hc])) h0]; rfl)
  rw [hc] at h
  rw [(List.cons.inj h).2]
  rfl

/-- A literal is read as it was spelled, up to a character that belongs to no number. -/
theorem scanLiteral_append (hv : s.Valid) (hr : Stops rest) :
    scanLiteral (s.text ++ rest) = some (s.literal, rest) := by
  have hw : scanDigits (s.whole ++ (s.fractionText ++ (s.exponentText ++ rest))) =
      (values s.whole, s.fractionText ++ (s.exponentText ++ rest)) :=
    scanDigits_append hv.whole (fractionText_noDigit hr)
  obtain ⟨d, vs, hds, hzero⟩ := values_cons hv
  have htext : s.text ++ rest = (if s.negative then ['-'] else []) ++
      (s.whole ++ (s.fractionText ++ (s.exponentText ++ rest))) := by
    simp only [text, List.append_assoc]
  have hne := hv.whole_ne_minus (s.fractionText ++ (s.exponentText ++ rest))
  rw [literal, hds]
  cases hn : s.negative
  all_goals
    rw [hn] at htext
    simp only [Bool.false_eq_true, if_true, if_false, List.nil_append, List.cons_append] at htext
    simp only [htext, scanLiteral, hw, hds, scanFraction_append hv hr, scanExponent_append hv hr,
      Option.bind_eq_bind, Option.bind_some]
    split
    · next h => cases h
    · next h =>
      cases h
      cases hzero rfl
    · rfl

end Spelling

def spellInt (n : ℤ) : Spelling := ⟨n < 0, (Nat.repr n.natAbs).toList, none, none⟩

theorem spellInt_text (n : ℤ) : (spellInt n).text = Json.intText n := by
  by_cases h : n < 0 <;>
    simp [spellInt, Spelling.text, Spelling.fractionText, Spelling.exponentText, Json.intText, h]

theorem spellInt_valid (n : ℤ) : (spellInt n).Valid where
  whole := isDigit_repr _
  whole_ne_nil := repr_ne_nil _
  zero h := by
    rcases Nat.eq_zero_or_pos n.natAbs with h0 | h0
    · rw [spellInt, h0]
      rfl
    · exact absurd h (head_repr h0)
  fraction := by simp [spellInt]
  exponent := by simp [spellInt]

theorem ofInt?_val (w : Wide) : Wide.ofInt? w.val = some w := dif_pos ⟨w.lower, w.upper⟩

theorem toNumber_spellInt (w : Wide) : (spellInt w.val).literal.toNumber = some (.int w) := by
  have hlt : w.val.natAbs < UInt64.size := by
    have h₁ := w.lower
    have h₂ := w.upper
    rw [show UInt64.size = 18446744073709551616 from rfl]
    omega
  have ha : accumulate 0 (values (Nat.repr w.val.natAbs).toList) = (w.val.natAbs, []) := by
    have hv := digitsValue_repr w.val.natAbs
    rw [digitsValue_eq] at hv
    rw [accumulate_values (by rwa [hv]), hv]
  have hval : (if w.val < 0 then -(w.val.natAbs : ℤ) else w.val.natAbs) = w.val := by
    split <;> omega
  rw [show (spellInt w.val).literal =
    ⟨w.val < 0, values (Nat.repr w.val.natAbs).toList, none, none⟩ from rfl, Literal.toNumber]
  simp only [ha]
  rw [if_neg (by simp only [decide_eq_true_eq]; omega)]
  simp only [decide_eq_true_eq, hval, ofInt?_val]

def spellFloat (x : Binary64) : Spelling :=
  let d := x.shortest
  let digits := (Nat.repr d.digits).toList
  let point := digits.length + d.exponent
  if d.digits = 0 then ⟨x.negative, ['0'], some ['0'], none⟩
  else if 0 ≤ d.exponent ∧ point ≤ 16 then
    ⟨x.negative, digits ++ Json.zeros d.exponent.toNat, some ['0'], none⟩
  else if 0 < point ∧ point ≤ 16 then
    ⟨x.negative, digits.take point.toNat, some (digits.drop point.toNat), none⟩
  else if -5 < point ∧ point ≤ 0 then
    ⟨x.negative, ['0'], some (Json.zeros (-point).toNat ++ digits), none⟩
  else
    ⟨x.negative, digits.take 1, if digits.drop 1 = [] then none else some (digits.drop 1),
      some (point - 1 < 0, (Nat.repr (point - 1).natAbs).toList)⟩

theorem spellFloat_text (x : Binary64) : (spellFloat x).text = Json.floatText x := by
  obtain ⟨c, cs, hc⟩ := List.exists_cons_of_ne_nil (repr_ne_nil x.shortest.digits)
  unfold spellFloat Json.floatText
  dsimp only
  split
  · rfl
  · split
    · simp [Spelling.text, Spelling.fractionText, Spelling.exponentText]
    · split
      · simp [Spelling.text, Spelling.fractionText, Spelling.exponentText]
      · split
        · simp [Spelling.text, Spelling.fractionText, Spelling.exponentText]
        · cases cs <;>
            simp [Spelling.text, Spelling.fractionText, Spelling.exponentText, hc, Json.signedText]

theorem isDigit_zeros (n : ℕ) : ∀ c ∈ Json.zeros n, isDigit c = true := by
  intro c hc
  rw [List.eq_of_mem_replicate hc]
  rfl

theorem isDigit_zero : ∀ c ∈ ['0'], isDigit c = true := isDigit_zeros 1

theorem spellFloat_valid (x : Binary64) : (spellFloat x).Valid := by
  have hd := isDigit_repr x.shortest.digits
  have hne := repr_ne_nil x.shortest.digits
  have hz : x.shortest.digits ≠ 0 → (Nat.repr x.shortest.digits).toList.head? ≠ some '0' :=
    fun h ↦ head_repr (Nat.pos_of_ne_zero h)
  unfold spellFloat
  dsimp only
  generalize (Nat.repr x.shortest.digits).toList = ds at *
  have hpos := List.length_pos_iff.2 hne
  split
  · exact ⟨isDigit_zero, by simp, fun _ ↦ rfl, by simpa using isDigit_zero, by simp⟩
  next h0 =>
  replace hz := hz h0
  -- by where the point stands: behind all digits, among them, before them, or after the first
  split
  · refine ⟨List.forall_mem_append.2 ⟨hd, isDigit_zeros _⟩, by simp [hne], fun h ↦ ?_,
      by simpa using isDigit_zero, by simp⟩
    rw [List.head?_append_of_ne_nil _ hne] at h
    exact absurd h hz
  next h1 =>
  split
  · next h2 =>
    refine ⟨fun c hc ↦ hd c (List.mem_of_mem_take hc), ?_, fun h ↦ ?_, ?_, by simp⟩
    · rw [ne_eq, List.take_eq_nil_iff, not_or]
      exact ⟨by omega, hne⟩
    · rw [List.head?_take, if_neg (by omega)] at h
      exact absurd h hz
    · simp only [Option.mem_def, Option.some.injEq, forall_eq', ne_eq, List.drop_eq_nil_iff]
      exact ⟨by omega, fun c hc ↦ hd c (List.mem_of_mem_drop hc)⟩
  next h2 =>
  split
  · refine ⟨isDigit_zero, by simp, fun _ ↦ rfl, ?_, by simp⟩
    simp only [Option.mem_def, Option.some.injEq, forall_eq']
    exact ⟨by simp [hne], List.forall_mem_append.2 ⟨isDigit_zeros _, hd⟩⟩
  next h3 =>
  refine ⟨fun c hc ↦ hd c (List.mem_of_mem_take hc), ?_, fun h ↦ ?_, ?_, ?_⟩
  · simp [hne]
  · rw [List.head?_take, if_neg (by omega)] at h
    exact absurd h hz
  · intro fs hf
    dsimp only at hf
    split at hf
    · cases hf
    · next hne' =>
      cases hf
      exact ⟨hne', fun c hc ↦ hd c (List.mem_of_mem_drop hc)⟩
  · simp only [Option.mem_def, Option.some.injEq, forall_eq']
    exact ⟨repr_ne_nil _, isDigit_repr _⟩

theorem size_lt_overflow (h : n < UInt64.size) : (n : ℚ) < Binary64.overflow := by
  calc (n : ℚ) < 2 ^ 64 := by exact_mod_cast h
    _ ≤ (2 ^ 54 - 1) * 2 ^ 11 := by norm_num
    _ ≤ Binary64.overflow := by
      rw [Binary64.overflow]
      gcongr <;> norm_num

theorem foldl_values (cs : List Char) :
    (values cs).foldl (fun e d ↦ e * 10 + d) 0 = digitsValue cs := by
  rw [values, List.foldl_map]
  rfl

theorem accumulate_short (hd : ∀ c ∈ cs, isDigit c = true) (hl : cs.length ≤ 19) :
    (accumulate 0 (values cs)).2 = [] := by
  rw [accumulate_values]
  calc Nat.ofDigitChars 10 cs 0 < 10 ^ cs.length := ofDigitChars_lt hd
    _ ≤ 10 ^ 19 := Nat.pow_le_pow_right (by decide) hl
    _ < UInt64.size := by decide

variable {l : Literal}

/-- A literal whose whole part fits 64 bits and that has no exponent is only scaled down. -/
theorem toFloat_positional (h : (accumulate 0 l.whole).2 = []) (he : l.exponent = none) :
    l.toFloat.isSome = true := by
  have hn : l.significand.1 < UInt64.size :=
    (accumulate_lt (accumulate_lt (by decide) _).1 _).1
  have hs : l.significand.2 ≤ 0 := by
    simp only [Literal.significand, h, List.length_nil]
    omega
  obtain ⟨y, hy⟩ := Option.isSome_iff_exists.1
    (Binary64.ofScientific_nonpos (size_lt_overflow hn) hs)
  simp [Literal.toFloat, he, hy]

theorem toFloat_scientific {negative : Bool} {fraction : Option (List ℕ)} {p : ℤ}
    (hlt : n < UInt64.size) (hp : p.natAbs < 2147483648)
    (hf : fraction.getD [] = values ((Nat.repr n).toList.drop 1))
    (h : (Binary64.ofScientific n (p + 1 - (Nat.repr n).toList.length)).isSome = true) :
    (Literal.toFloat ⟨negative, values ((Nat.repr n).toList.take 1), fraction,
      some (p < 0, values (Nat.repr p.natAbs).toList)⟩).isSome = true := by
  have hpos := List.length_pos_iff.2 (repr_ne_nil n)
  have hd := isDigit_repr n
  have hn := digitsValue_repr n
  rw [digitsValue_eq] at hn
  generalize (Nat.repr n).toList = ds at *
  rw [← List.take_append_drop 1 ds, Nat.ofDigitChars_append] at hn
  have h₁ : accumulate 0 (values (ds.take 1)) = (Nat.ofDigitChars 10 (ds.take 1) 0, []) := by
    have hd₁ : ∀ c ∈ ds.take 1, isDigit c = true := fun c hc ↦ hd c (List.mem_of_mem_take hc)
    refine accumulate_values ((ofDigitChars_lt hd₁).trans_le ?_)
    exact (Nat.pow_le_pow_right (by decide) (List.length_take_le 1 ds)).trans (by decide)
  have h₂ : accumulate (Nat.ofDigitChars 10 (ds.take 1) 0) (values (ds.drop 1)) = (n, []) := by
    rw [accumulate_values (by rwa [hn]), hn]
  obtain ⟨y, hy⟩ := Option.isSome_iff_exists.1 h
  have he : (if decide (p < 0) = true then
      (([] : List ℕ).length : ℤ) - ((values (ds.drop 1)).length - ([] : List ℕ).length : ℕ) -
        p.natAbs
      else (([] : List ℕ).length : ℤ) - ((values (ds.drop 1)).length - ([] : List ℕ).length : ℕ) +
        p.natAbs) = p + 1 - ds.length := by
    simp only [values, List.length_map, List.length_drop, List.length_nil, decide_eq_true_eq]
    split <;> omega
  simp only [Literal.toFloat, Literal.significand, h₁, hf, h₂, foldl_values, digitsValue_repr, hp,
    if_true, he, hy]
  rfl

theorem length_repr_shortest (x : Binary64) : (Nat.repr x.shortest.digits).toList.length ≤ 18 :=
  (length_repr_le (by decide)).2 (x.shortest_spec.2.1.trans (by decide))

/-- The text of a double denotes a double. -/
theorem toFloat_spellFloat (x : Binary64) : (spellFloat x).literal.toFloat.isSome = true := by
  have hd := isDigit_repr x.shortest.digits
  unfold spellFloat
  dsimp only
  split
  · exact toFloat_positional rfl rfl
  next h0 =>
  split
  · refine toFloat_positional
      (accumulate_short (List.forall_mem_append.2 ⟨hd, isDigit_zeros _⟩) ?_) rfl
    rw [List.length_append, Json.zeros, List.length_replicate]
    omega
  split
  · refine toFloat_positional (accumulate_short (fun c hc ↦ hd c (List.mem_of_mem_take hc)) ?_) rfl
    rw [List.length_take]
    omega
  split
  · exact toFloat_positional rfl rfl
  · obtain ⟨-, hlt, hlow⟩ := x.shortest_spec
    have hhigh := Binary64.shortest_exponent_lt h0
    have hlen := length_repr_shortest x
    have hsize : x.shortest.digits < UInt64.size := hlt.trans (by decide)
    refine toFloat_scientific hsize (by omega) ?_ ?_
    · split
      · next h =>
        rw [h]
        rfl
      · rfl
    · rw [show ((Nat.repr x.shortest.digits).toList.length : ℤ) + x.shortest.exponent - 1 + 1 -
        (Nat.repr x.shortest.digits).toList.length = x.shortest.exponent by ring]
      rcases le_total 0 x.shortest.exponent with h | h
      · exact Binary64.ofScientific_shortest h
      · exact Binary64.ofScientific_nonpos (size_lt_overflow hsize) h

theorem toNumber_of_ne (h : l.fraction ≠ none ∨ l.exponent ≠ none) :
    l.toNumber = l.toFloat.map .float := by
  unfold Literal.toNumber
  split
  · next hf he _ => exact absurd h (by simp [hf, he])
  · rfl

theorem spellFloat_ne (x : Binary64) :
    (spellFloat x).literal.fraction ≠ none ∨ (spellFloat x).literal.exponent ≠ none := by
  unfold spellFloat Spelling.literal
  dsimp only
  split
  · exact .inl (by simp)
  split
  · exact .inl (by simp)
  split
  · exact .inl (by simp)
  split
  · exact .inl (by simp)
  · exact .inr (by simp)

def spell : Number → Spelling
  | .int n => spellInt n.val
  | .float x => spellFloat x

theorem spell_text (n : Number) : (spell n).text = Json.numberText n := by
  cases n with
  | int n => exact spellInt_text n.val
  | float x => exact spellFloat_text x

theorem spell_valid (n : Number) : (spell n).Valid := by
  cases n with
  | int n => exact spellInt_valid n.val
  | float x => exact spellFloat_valid x

theorem isSome_toNumber_spell (n : Number) : (spell n).literal.toNumber.isSome = true := by
  cases n with
  | int n => simp [spell, toNumber_spellInt]
  | float x => simp [spell, toNumber_of_ne (spellFloat_ne x), toFloat_spellFloat]

theorem next?_literal {c : Char} (hc : isDigit c = true ∨ c = '-') (cs : List Char) :
    next? (c :: cs) = (scanLiteral (c :: cs)).bind fun r ↦
      r.1.toNumber.map fun m ↦ (atom (.num m), r.2) := by
  unfold next?
  split
  case h_11 =>
    cases scanLiteral (c :: cs) with
    | none => rfl
    | some r => cases h : r.1.toNumber <;> simp [h]
  all_goals
    next h =>
    cases h
    exact absurd hc (by decide)

theorem Spelling.Valid.text_cons {s : Spelling} (hv : s.Valid) :
    ∃ c cs, s.text = c :: cs ∧ (isDigit c = true ∨ c = '-') := by
  obtain ⟨c, cs, hc⟩ := List.exists_cons_of_ne_nil hv.whole_ne_nil
  rw [text, hc]
  cases s.negative with
  | true => exact ⟨_, _, rfl, .inr rfl⟩
  | false => exact ⟨_, _, rfl, .inl (hv.whole c (by simp [hc]))⟩

theorem next?_spell (n : Number) (hr : Stops rest) :
    next? (Json.numberText n ++ rest) =
      (spell n).literal.toNumber.map fun m ↦ (atom (.num m), rest) := by
  obtain ⟨c, cs, hc, hd⟩ := (spell_valid n).text_cons
  have hs := Spelling.scanLiteral_append (spell_valid n) hr
  rw [← spell_text, hc, List.cons_append] at *
  rw [next?_literal hd, hs, Option.bind_some]

end Token

namespace Number

variable {rest : List Char}

/-- What the text of a number is read as. -/
def reread (n : Number) : Number :=
  match Token.next? (Json.numberText n) with
  | some (.atom (.num m), []) => m
  | _ => n

theorem toNumber_spell (n : Number) : (Token.spell n).literal.toNumber = some n.reread := by
  have h := Token.next?_spell n Token.stops_nil
  obtain ⟨m, hm⟩ := Option.isSome_iff_exists.1 (Token.isSome_toNumber_spell n)
  rw [List.append_nil, hm, Option.map_some] at h
  rw [hm, reread, h]

theorem next?_numberText (n : Number) (hr : Token.Stops rest) :
    Token.next? (Json.numberText n ++ rest) = some (.atom (.num n.reread), rest) := by
  rw [Token.next?_spell n hr, toNumber_spell, Option.map_some]

theorem reread_int (n : Wide) : (Number.int n).reread = .int n := by
  have h := toNumber_spell (.int n)
  rw [Token.spell, Token.toNumber_spellInt] at h
  exact (Option.some.inj h).symm

def Exact : Number → Prop
  | .int _ => True
  | .float x => (Number.float x).reread = .float x

theorem Exact.reread {n : Number} (h : n.Exact) : n.reread = n := by
  cases n with
  | int n => exact reread_int n
  | float x => exact h

end Number

end JobEngine
