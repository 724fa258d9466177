import JobEngine.Proofs.Json.Reading

namespace JobEngine

namespace Token

variable {cs rest : List Char} {t : Token} {ts : List Token}

/-- An atom holds a value that is a single token. -/
def Atomic : Token → Prop
  | atom v => v.tokens = [atom v]
  | _ => True

theorem next?_atomic (h : next? cs = some (t, rest)) : t.Atomic := by
  unfold next? at h
  split at h
  case h_11 =>
    obtain ⟨⟨l, rest'⟩, -, h⟩ := Option.bind_eq_some_iff.1 h
    obtain ⟨n, -, h⟩ := Option.bind_eq_some_iff.1 h
    cases h
    rfl
  case h_7 =>
    obtain ⟨⟨s, rest'⟩, -, h⟩ := Option.bind_eq_some_iff.1 h
    cases h
    trivial
  all_goals
    cases h
    trivial

theorem scanWith_atomic (n : ℕ) (h : scanWith n cs = some ts) : ∀ t ∈ ts, t.Atomic := by
  induction n generalizing cs ts with
  | zero =>
    cases cs with
    | nil =>
      cases h
      exact fun _ ht ↦ nomatch ht
    | cons c cs => cases h
  | succ n ih =>
    cases cs with
    | nil =>
      cases h
      exact fun _ ht ↦ nomatch ht
    | cons c cs =>
      rw [scanWith] at h
      split at h
      · exact ih h
      · obtain ⟨⟨t, rest⟩, ht, h⟩ := Option.bind_eq_some_iff.1 h
        obtain ⟨ts', hs, h⟩ := Option.bind_eq_some_iff.1 h
        cases h
        exact List.forall_mem_cons.2 ⟨next?_atomic ht, ih hs⟩

end Token

namespace Json

variable {limit : ℕ}

def leadItems : List Json → List Token
  | [] => []
  | x :: done => leadItems done ++ x.tokens ++ [.comma]

def leadMembers : Members → List Token
  | [] => []
  | (k, v) :: done => leadMembers done ++ .str k :: .colon :: v.tokens ++ [.comma]

/-- The tokens taken in for the containers that are open. -/
def consumed : List Frame → List Token
  | [] => []
  | .items done :: stack => consumed stack ++ .openBracket :: leadItems done
  | .members done key :: stack =>
    consumed stack ++ .openBrace :: (leadMembers done ++ [.str key, .colon])

theorem tokens_arr (done : List Json) (v : Json) (xs : List Json) :
    (arr (done.reverse ++ v :: xs)).tokens =
      .openBracket :: (leadItems done ++ v.tokens ++ itemTokens xs) := by
  induction done generalizing v xs with
  | nil => rfl
  | cons x done ih =>
    rw [List.reverse_cons, List.append_assoc, List.singleton_append, ih]
    simp only [leadItems, itemTokens, List.append_assoc, List.cons_append, List.nil_append]

theorem tokens_obj (done : Members) (k : String) (v : Json) (m : Members) :
    (obj (done.reverse ++ (k, v) :: m)).tokens =
      .openBrace :: (leadMembers done ++ .str k :: .colon :: v.tokens ++ memberTokens m) := by
  induction done generalizing k v m with
  | nil => rfl
  | cons x done ih =>
    rw [List.reverse_cons, List.append_assoc, List.singleton_append, ih]
    simp only [leadMembers, memberTokens, List.append_assoc, List.cons_append, List.nil_append]

/-- What the reader gives at a value has the tokens taken in before and those that are left. -/
def KeepsValue (limit : ℕ) (stack : List Frame) (ts : List Token) : Prop :=
  (∀ t ∈ ts, t.Atomic) → ∀ w, readValue limit stack ts = some w → w.tokens = consumed stack ++ ts

def KeepsRest (limit : ℕ) (stack : List Frame) (v : Json) (ts : List Token) : Prop :=
  (∀ t ∈ ts, t.Atomic) → ∀ w, readRest limit stack v ts = some w →
    w.tokens = consumed stack ++ v.tokens ++ ts

theorem keeps_tokens (limit : ℕ) : (∀ stack ts, KeepsValue limit stack ts) ∧
    ∀ stack v ts, KeepsRest limit stack v ts := by
  apply readValue.mutual_induct limit
  case case1 =>
    intro stack v ts ih ha w h
    obtain ⟨hv, ha⟩ := List.forall_mem_cons.1 ha
    have hv : v.tokens = [.atom v] := hv
    rw [ih ha w h, hv, List.append_assoc, List.singleton_append]
  case case2 =>
    intro stack s ts ih ha w h
    rw [ih (List.forall_mem_cons.1 ha).2 w h, tokens, List.append_assoc, List.singleton_append]
  case case3 =>
    intro stack ts hl ih ha w h
    rw [readValue, if_pos hl] at h
    have ha := (List.forall_mem_cons.1 (List.forall_mem_cons.1 ha).2).2
    rw [ih ha w h, tokens, List.append_assoc, List.cons_append, List.singleton_append]
  case case5 =>
    intro stack ts hc hl ih ha w h
    rw [readValue_openBracket fun rest hr ↦ hc rest hr, if_pos hl] at h
    rw [ih (List.forall_mem_cons.1 ha).2 w h, consumed, leadItems, List.append_assoc,
      List.singleton_append]
  case case7 =>
    intro stack ts hl ih ha w h
    rw [readValue, if_pos hl] at h
    have ha := (List.forall_mem_cons.1 (List.forall_mem_cons.1 ha).2).2
    rw [ih ha w h, tokens, List.append_assoc, List.cons_append, List.singleton_append]
  case case9 =>
    intro stack k ts hl ih ha w h
    rw [readValue, if_pos hl] at h
    have ha := (List.forall_mem_cons.1 (List.forall_mem_cons.1 (List.forall_mem_cons.1 ha).2).2).2
    rw [ih ha w h, consumed, leadMembers]
    simp only [List.append_assoc, List.cons_append, List.nil_append]
  case case12 =>
    intro v ha w h
    cases h
    rw [consumed, List.nil_append, List.append_nil]
  case case13 =>
    intro v done stack ts ih ha w h
    rw [ih (List.forall_mem_cons.1 ha).2 w h, consumed, consumed, leadItems]
    simp only [List.append_assoc, List.cons_append, List.nil_append]
  case case14 =>
    intro v done stack ts ih ha w h
    rw [ih (List.forall_mem_cons.1 ha).2 w h, consumed, List.reverse_cons, tokens_arr, itemTokens]
    simp only [List.append_assoc, List.cons_append, List.nil_append]
  case case15 =>
    intro v done k stack l ts ih ha w h
    have ha := (List.forall_mem_cons.1 (List.forall_mem_cons.1 (List.forall_mem_cons.1 ha).2).2).2
    rw [ih ha w h, consumed, consumed, leadMembers]
    simp only [List.append_assoc, List.cons_append, List.nil_append]
  case case16 =>
    intro v done k stack ts ih ha w h
    rw [ih (List.forall_mem_cons.1 ha).2 w h, consumed, List.reverse_cons, tokens_obj,
      memberTokens]
    simp only [List.append_assoc, List.cons_append, List.nil_append]
  -- every other case is one in which nothing is read
  case case4 | case8 | case10 =>
    intros
    intro _ w h
    rw [readValue, if_neg (by assumption)] at h
    cases h
  case case6 =>
    intro stack ts hc hl _ w h
    rw [readValue_openBracket fun rest hr ↦ hc rest hr, if_neg hl] at h
    cases h
  case case11 =>
    intro ts stack h₁ h₂ h₃ h₄ h₅ h₆ _ w h
    rw [readValue] at h
    · cases h
    all_goals assumption
  case case17 =>
    intro ts stack v h₁ h₂ h₃ h₄ h₅ _ w h
    rw [readRest] at h
    · cases h
    all_goals assumption

/-- The reader reads exactly the values that a text spells and that are not nested too deeply. -/
theorem read_eq_some_iff {text : String} {v : Json} :
    read text = some v ↔ Spells text v ∧ v.depth ≤ maxDepth := by
  constructor
  · intro h
    obtain ⟨ts, ht, hr⟩ := Option.bind_eq_some_iff.1 h
    have hv : v.tokens = ts := (keeps_tokens maxDepth).1 [] ts (Token.scanWith_atomic _ ht) v hr
    have hs : Spells text v := ht.trans (congrArg some hv.symm)
    refine ⟨hs, ?_⟩
    by_contra hd
    rw [hs.read, if_neg hd] at h
    cases h
  · rintro ⟨hs, hd⟩
    rw [hs.read, if_pos hd]

end Json

end JobEngine
