import JobEngine.Json.Printer
import JobEngine.Proofs.Json.Number

namespace JobEngine

namespace Token

variable {cs rest text : List Char} {t : Token} {ts : List Token} {c : Char}

theorem hexDigit_hexDigit : ∀ n < 16, hexDigit (Text.hexDigit n) = some n := by decide

theorem hexUnit_control (h : c.toNat < 0x20) :
    hexUnit '0' '0' (Text.hexDigit (c.toNat / 16)) (Text.hexDigit (c.toNat % 16)) =
      some c.toNat := by
  have h₁ := hexDigit_hexDigit (c.toNat / 16) (by omega)
  have h₂ := hexDigit_hexDigit (c.toNat % 16) (by omega)
  have h₀ : hexDigit '0' = some 0 := rfl
  simp only [hexUnit, h₀, h₁, h₂, Option.bind_eq_bind, Option.bind_some]
  exact congrArg some (by omega)

theorem scanString_escape (c : Char) (tail : List Char) :
    scanString (Json.escape c ++ tail) = (scanString tail).map fun r ↦ (c :: r.1, r.2) := by
  have hbind {f : List Char × List Char → List Char × List Char} :
      ((scanString tail).bind fun r ↦ some (f r)) = (scanString tail).map f := by
    cases scanString tail <;> rfl
  unfold Json.escape
  split_ifs with h₁ h₂ h₃ h₄ h₅ h₆ h₇ h₈
  all_goals try subst c
  all_goals try exact hbind
  · have hh : isHighSurrogate c.toNat = false := by simp [isHighSurrogate]; omega
    have hl : isLowSurrogate c.toNat = false := by simp [isLowSurrogate]; omega
    simp only [List.cons_append, List.nil_append, scanString, hexUnit_control h₈, hh, hl,
      Option.bind_eq_bind, Option.bind_some, Bool.false_eq_true, if_false, Char.ofNat_toNat]
    exact hbind
  · rw [List.cons_append, List.nil_append, scanString, if_neg h₈]
    · exact hbind
    · exact h₁
    · intro _ _ _ _ _ h
      exact absurd h h₂
    · intro _ _ h
      exact absurd h h₂

theorem scanString_quoted (s rest : List Char) :
    scanString (s.flatMap Json.escape ++ '"' :: rest) = some (s, rest) := by
  induction s with
  | nil => rfl
  | cons c s ih => rw [List.flatMap_cons, List.append_assoc, scanString_escape, ih, Option.map_some]

theorem next?_quoted (s : String) (rest : List Char) :
    next? (Json.quoted s ++ rest) = some (.str s, rest) := by
  have h := scanString_quoted s.toList rest
  simp only [Json.quoted, List.cons_append, List.append_assoc, List.nil_append, next?, h,
    Option.bind_eq_bind, Option.bind_some, String.ofList_toList]
  rfl

/-- A text splits into these tokens. -/
def Lexes (cs : List Char) (ts : List Token) : Prop :=
  ∀ n, cs.length ≤ n → scanWith n cs = some ts

theorem Lexes.scan (h : Lexes cs ts) : scan cs = some ts := h _ le_rfl

theorem Lexes.nil : Lexes [] [] := by
  intro n _
  cases n <;> rfl

theorem Lexes.blank (hc : isBlank c = true) (h : Lexes cs ts) : Lexes (c :: cs) ts := by
  intro n hn
  cases n with
  | zero => simp at hn
  | succ n =>
    rw [scanWith, if_pos hc]
    exact h n (Nat.le_of_succ_le_succ hn)

theorem Lexes.token (hc : isBlank c = false) (ht : next? (c :: (cs ++ rest)) = some (t, rest))
    (h : Lexes rest ts) : Lexes (c :: (cs ++ rest)) (t :: ts) := by
  intro n hn
  cases n with
  | zero => simp at hn
  | succ n =>
    have hr := h n (by simp only [List.length_cons, List.length_append] at hn; omega)
    rw [scanWith, if_neg (by simp [hc]), ht]
    simp only [Option.bind_eq_bind, Option.bind_some, hr]
    rfl

theorem Lexes.mark (hc : isBlank c = false) (ht : ∀ rest, next? (c :: rest) = some (t, rest))
    (h : Lexes rest ts) : Lexes (c :: rest) (t :: ts) := by
  have ht : next? (c :: ([] ++ rest)) = some (t, rest) := ht rest
  exact .token hc ht h

theorem Lexes.quoted (s : String) (h : Lexes rest ts) :
    Lexes (Json.quoted s ++ rest) (.str s :: ts) :=
  .token (by decide) (next?_quoted s rest) h

theorem isBlank_of_isDigit (h : Text.isDigit c = true) : isBlank c = false := by
  rw [← Bool.not_eq_true]
  intro hb
  simp only [isBlank, Bool.or_eq_true, decide_eq_true_eq] at hb
  rcases hb with ((rfl | rfl) | rfl) | rfl <;> exact absurd h (by decide)

theorem Lexes.number (n : Number) (hr : Stops rest) (h : Lexes rest ts) :
    Lexes (Json.numberText n ++ rest) (.atom (.num n.reread) :: ts) := by
  have ht := n.next?_numberText hr
  obtain ⟨c, cs, hc, hd⟩ := (spell_valid n).text_cons
  rw [spell_text] at hc
  rw [hc] at ht ⊢
  refine .token ?_ ht h
  rcases hd with hd | rfl
  · exact isBlank_of_isDigit hd
  · decide

end Token

namespace Json

open Token

variable {rest : List Char} {ts : List Token} {c : Char}

theorem lexes_newline (level : ℕ) (h : Lexes rest ts) : Lexes (newline level ++ rest) ts := by
  refine .blank (by decide) ?_
  induction 2 * level with
  | zero => exact h
  | succ n ih => exact .blank (by decide) ih

mutual

def reread : Json → Json
  | .num n => .num n.reread
  | .arr items => .arr (rereadItems items)
  | .obj members => .obj (rereadMembers members)
  | .null => .null
  | .bool b => .bool b
  | .str s => .str s

def rereadItems : List Json → List Json
  | [] => []
  | x :: xs => reread x :: rereadItems xs

def rereadMembers : Members → Members
  | [] => []
  | (k, v) :: rest => (k, reread v) :: rereadMembers rest

end

mutual

def tokens : Json → List Token
  | .null => [.atom .null]
  | .bool b => [.atom (.bool b)]
  | .num n => [.atom (.num n)]
  | .str s => [.str s]
  | .arr [] => [.openBracket, .closeBracket]
  | .arr (x :: xs) => .openBracket :: (tokens x ++ itemTokens xs)
  | .obj [] => [.openBrace, .closeBrace]
  | .obj ((k, v) :: rest) => .openBrace :: .str k :: .colon :: (tokens v ++ memberTokens rest)

def itemTokens : List Json → List Token
  | [] => [.closeBracket]
  | x :: xs => .comma :: (tokens x ++ itemTokens xs)

def memberTokens : Members → List Token
  | [] => [.closeBrace]
  | (k, v) :: rest => .comma :: .str k :: .colon :: (tokens v ++ memberTokens rest)

end

theorem stops_cons (h : Text.isDigit c = false ∧ c ≠ '.' ∧ c ≠ 'e' ∧ c ≠ 'E') :
    Stops (c :: rest) := by simpa [Stops] using h

theorem stops_items (level : ℕ) (xs : List Json) (rest : List Char) :
    Stops (prettyItems level xs ++ rest) := by
  cases xs with
  | nil => exact stops_cons (by decide)
  | cons x xs => exact stops_cons (by decide)

theorem stops_members (level : ℕ) (m : Members) (rest : List Char) :
    Stops (prettyMembers level m ++ rest) := by
  cases m with
  | nil => exact stops_cons (by decide)
  | cons x xs => exact stops_cons (by decide)

mutual

/-- The text of a value splits into its tokens, whatever follows that is no part of a number. -/
theorem lexes_pretty : (v : Json) → ∀ (level : ℕ) {rest : List Char} {ts : List Token},
    Stops rest → Lexes rest ts → Lexes (prettyText level v ++ rest) (v.reread.tokens ++ ts)
  | .null, _, _, _, _, h => .token (by decide) rfl h
  | .bool true, _, _, _, _, h => .token (by decide) rfl h
  | .bool false, _, _, _, _, h => .token (by decide) rfl h
  | .num n, _, _, _, hr, h => .number n hr h
  | .str s, _, _, _, _, h => .quoted s h
  | .arr [], _, _, _, _, h => .mark (by decide) (fun _ ↦ rfl) (.mark (by decide) (fun _ ↦ rfl) h)
  | .arr (x :: xs), level, rest, ts, _, h => by
    have hx := lexes_pretty x (level + 1) (stops_items level xs rest) (lexes_items xs level h)
    simp only [prettyText, reread, rereadItems, tokens, List.cons_append, List.append_assoc]
    exact .mark (by decide) (fun _ ↦ rfl) (lexes_newline _ hx)
  | .obj [], _, _, _, _, h => .mark (by decide) (fun _ ↦ rfl) (.mark (by decide) (fun _ ↦ rfl) h)
  | .obj ((k, v) :: m), level, rest, ts, _, h => by
    have hv := lexes_pretty v (level + 1) (stops_members level m rest) (lexes_members m level h)
    simp only [prettyText, reread, rereadMembers, tokens, List.cons_append, List.append_assoc]
    exact .mark (by decide) (fun _ ↦ rfl) (lexes_newline _ (.quoted k
      (.mark (by decide) (fun _ ↦ rfl) (.blank (by decide) hv))))

theorem lexes_items : (xs : List Json) → ∀ (level : ℕ) {rest : List Char} {ts : List Token},
    Lexes rest ts → Lexes (prettyItems level xs ++ rest) (itemTokens (rereadItems xs) ++ ts)
  | [], level, rest, ts, h => by
    simp only [prettyItems, List.append_assoc]
    exact lexes_newline _ (.mark (by decide) (fun _ ↦ rfl) h)
  | x :: xs, level, rest, ts, h => by
    have hx := lexes_pretty x (level + 1) (stops_items level xs rest) (lexes_items xs level h)
    simp only [prettyItems, rereadItems, itemTokens, List.cons_append, List.append_assoc]
    exact .mark (by decide) (fun _ ↦ rfl) (lexes_newline _ hx)

theorem lexes_members : (m : Members) → ∀ (level : ℕ) {rest : List Char} {ts : List Token},
    Lexes rest ts → Lexes (prettyMembers level m ++ rest) (memberTokens (rereadMembers m) ++ ts)
  | [], level, rest, ts, h => by
    simp only [prettyMembers, List.append_assoc]
    exact lexes_newline _ (.mark (by decide) (fun _ ↦ rfl) h)
  | (k, v) :: m, level, rest, ts, h => by
    have hv := lexes_pretty v (level + 1) (stops_members level m rest) (lexes_members m level h)
    simp only [prettyMembers, rereadMembers, memberTokens, List.cons_append, List.append_assoc]
    exact .mark (by decide) (fun _ ↦ rfl) (lexes_newline _ (.quoted k
      (.mark (by decide) (fun _ ↦ rfl) (.blank (by decide) hv))))

end

theorem scan_pretty (v : Json) : scan (prettyText 0 v) = some v.reread.tokens := by
  have h := (lexes_pretty v 0 stops_nil .nil).scan
  rwa [List.append_nil, List.append_nil] at h

theorem stops_compactItems (xs : List Json) (rest : List Char) :
    Stops (compactItems xs ++ rest) := by
  cases xs with
  | nil => exact stops_cons (by decide)
  | cons x xs => exact stops_cons (by decide)

theorem stops_compactMembers (m : Members) (rest : List Char) :
    Stops (compactMembers m ++ rest) := by
  cases m with
  | nil => exact stops_cons (by decide)
  | cons x xs => exact stops_cons (by decide)

mutual

theorem lexes_compact : (v : Json) → ∀ {rest : List Char} {ts : List Token},
    Stops rest → Lexes rest ts → Lexes (compactText v ++ rest) (v.reread.tokens ++ ts)
  | .null, _, _, _, h => .token (by decide) rfl h
  | .bool true, _, _, _, h => .token (by decide) rfl h
  | .bool false, _, _, _, h => .token (by decide) rfl h
  | .num n, _, _, hr, h => .number n hr h
  | .str s, _, _, _, h => .quoted s h
  | .arr [], _, _, _, h => .mark (by decide) (fun _ ↦ rfl) (.mark (by decide) (fun _ ↦ rfl) h)
  | .arr (x :: xs), rest, ts, _, h => by
    have hx := lexes_compact x (stops_compactItems xs rest) (lexes_compactItems xs h)
    simp only [compactText, reread, rereadItems, tokens, List.cons_append, List.append_assoc]
    exact .mark (by decide) (fun _ ↦ rfl) hx
  | .obj [], _, _, _, h => .mark (by decide) (fun _ ↦ rfl) (.mark (by decide) (fun _ ↦ rfl) h)
  | .obj ((k, v) :: m), rest, ts, _, h => by
    have hv := lexes_compact v (stops_compactMembers m rest) (lexes_compactMembers m h)
    simp only [compactText, reread, rereadMembers, tokens, List.cons_append, List.append_assoc]
    exact .mark (by decide) (fun _ ↦ rfl) (.quoted k (.mark (by decide) (fun _ ↦ rfl) hv))

theorem lexes_compactItems : (xs : List Json) → ∀ {rest : List Char} {ts : List Token},
    Lexes rest ts → Lexes (compactItems xs ++ rest) (itemTokens (rereadItems xs) ++ ts)
  | [], _, _, h => .mark (by decide) (fun _ ↦ rfl) h
  | x :: xs, rest, ts, h => by
    have hx := lexes_compact x (stops_compactItems xs rest) (lexes_compactItems xs h)
    simp only [compactItems, rereadItems, itemTokens, List.cons_append, List.append_assoc]
    exact .mark (by decide) (fun _ ↦ rfl) hx

theorem lexes_compactMembers : (m : Members) → ∀ {rest : List Char} {ts : List Token},
    Lexes rest ts → Lexes (compactMembers m ++ rest) (memberTokens (rereadMembers m) ++ ts)
  | [], _, _, h => .mark (by decide) (fun _ ↦ rfl) h
  | (k, v) :: m, rest, ts, h => by
    have hv := lexes_compact v (stops_compactMembers m rest) (lexes_compactMembers m h)
    simp only [compactMembers, rereadMembers, memberTokens, List.cons_append, List.append_assoc]
    exact .mark (by decide) (fun _ ↦ rfl) (.quoted k (.mark (by decide) (fun _ ↦ rfl) hv))

end

theorem scan_compact (v : Json) : scan (compactText v) = some v.reread.tokens := by
  have h := (lexes_compact v stops_nil .nil).scan
  rwa [List.append_nil, List.append_nil] at h

end Json

end JobEngine
