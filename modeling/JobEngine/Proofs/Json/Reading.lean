import JobEngine.Json.Reader
import JobEngine.Proofs.Json.Lexing

namespace JobEngine.Json

variable {limit : ℕ} {stack : List Frame} {ts : List Token}

mutual

/-- How deep containers are nested. -/
def depth : Json → ℕ
  | .arr items => depthItems items + 1
  | .obj members => depthMembers members + 1
  | .null | .bool _ | .num _ | .str _ => 0

def depthItems : List Json → ℕ
  | [] => 0
  | x :: xs => max (depth x) (depthItems xs)

def depthMembers : Members → ℕ
  | [] => 0
  | (_, v) :: rest => max (depth v) (depthMembers rest)

end

theorem readValue_openBracket (h : ∀ rest, ts ≠ .closeBracket :: rest) :
    readValue limit stack (.openBracket :: ts) =
      if stack.length < limit then readValue limit (.items [] :: stack) ts else none := by
  rw [readValue]
  exact h

theorem tokens_ne (v : Json) (ts rest : List Token) : v.tokens ++ ts ≠ .closeBracket :: rest := by
  cases v with
  | arr items => cases items <;> simp [tokens]
  | obj members => cases members <;> simp [tokens]
  | _ => simp [tokens]

theorem ite_max {α : Type} {n a b : ℕ} {r : Option α} :
    (if n + a ≤ limit then if n + b ≤ limit then r else none else none) =
      if n + max a b ≤ limit then r else none := by
  split_ifs <;> first | rfl | omega

mutual

/-- The reader takes a value in and goes on, unless the value is nested too deeply. -/
theorem readValue_tokens : (v : Json) → ∀ (stack : List Frame) (ts : List Token),
    stack.length ≤ limit → readValue limit stack (v.tokens ++ ts) =
      if stack.length + v.depth ≤ limit then readRest limit stack v ts else none
  | .null, _, _, h | .bool _, _, _, h | .num _, _, _, h | .str _, _, _, h => by
    rw [depth, Nat.add_zero, if_pos h]
    rfl
  | .arr [], _, _, _ => by
    rw [tokens, List.cons_append, List.cons_append, List.nil_append, readValue]
    rfl
  | .arr (x :: xs), stack, ts, _ => by
    rw [tokens, List.cons_append, List.append_assoc, readValue_openBracket (tokens_ne x _), depth,
      depthItems]
    split
    · next h =>
      -- an item has one container more around it than the array
      rw [readValue_tokens x (.items [] :: stack) _ h, readRest_items xs stack _ _ _ h,
        List.length_cons, ite_max, Nat.add_assoc, Nat.add_comm 1]
      rfl
    · rw [if_neg (by omega)]
  | .obj [], _, _, _ => by
    rw [tokens, List.cons_append, List.cons_append, List.nil_append, readValue]
    rfl
  | .obj ((k, v) :: m), stack, ts, _ => by
    rw [tokens, List.cons_append, List.cons_append, List.cons_append, List.append_assoc, readValue,
      depth, depthMembers]
    split
    · next h =>
      rw [readValue_tokens v (.members [] k :: stack) _ h, readRest_members m stack _ _ _ _ h,
        List.length_cons, ite_max, Nat.add_assoc, Nat.add_comm 1]
      rfl
    · rw [if_neg (by omega)]

theorem readRest_items : (xs : List Json) → ∀ (stack : List Frame) (done : List Json) (v : Json)
    (ts : List Token), stack.length < limit →
    readRest limit (.items done :: stack) v (itemTokens xs ++ ts) =
      if stack.length + 1 + depthItems xs ≤ limit then
        readRest limit stack (.arr ((v :: done).reverse ++ xs)) ts
      else none
  | [], _, _, _, _, h => by
    rw [depthItems, if_pos (by exact h), List.append_nil, itemTokens, List.cons_append,
      List.nil_append, readRest]
  | x :: xs, stack, done, v, ts, h => by
    rw [itemTokens, List.cons_append, List.append_assoc, readRest, depthItems,
      readValue_tokens x (.items (v :: done) :: stack) _ h, readRest_items xs stack _ _ _ h,
      List.length_cons, ite_max]
    simp only [List.reverse_cons, List.append_assoc, List.cons_append, List.nil_append]

theorem readRest_members : (m : Members) → ∀ (stack : List Frame) (done : Members) (k : String)
    (v : Json) (ts : List Token), stack.length < limit →
    readRest limit (.members done k :: stack) v (memberTokens m ++ ts) =
      if stack.length + 1 + depthMembers m ≤ limit then
        readRest limit stack (.obj (((k, v) :: done).reverse ++ m)) ts
      else none
  | [], _, _, _, _, _, h => by
    rw [depthMembers, if_pos (by exact h), List.append_nil, memberTokens, List.cons_append,
      List.nil_append, readRest]
  | (l, w) :: m, stack, done, k, v, ts, h => by
    rw [memberTokens, List.cons_append, List.cons_append, List.cons_append, List.append_assoc,
      readRest, depthMembers, readValue_tokens w (.members ((k, v) :: done) l :: stack) _ h,
      readRest_members m stack _ _ _ _ h, List.length_cons, ite_max]
    simp only [List.reverse_cons, List.append_assoc, List.cons_append, List.nil_append]

end

mutual

theorem depth_reread : (v : Json) → v.reread.depth = v.depth
  | .null | .bool _ | .num _ | .str _ => rfl
  | .arr items => by rw [reread, depth, depth, depthItems_reread items]
  | .obj members => by rw [reread, depth, depth, depthMembers_reread members]

theorem depthItems_reread : (xs : List Json) → depthItems (rereadItems xs) = depthItems xs
  | [] => rfl
  | x :: xs => by rw [rereadItems, depthItems, depthItems, depth_reread x, depthItems_reread xs]

theorem depthMembers_reread : (m : Members) → depthMembers (rereadMembers m) = depthMembers m
  | [] => rfl
  | (_, v) :: m => by
    rw [rereadMembers, depthMembers, depthMembers, depth_reread v, depthMembers_reread m]

end

/-- A text spells a value if it consists of the tokens of that value, with any blanks between
them. -/
def Spells (text : String) (v : Json) : Prop := Token.scan text.toList = some v.tokens

theorem spells_pretty (v : Json) : Spells v.pretty v.reread := by
  rw [Spells, pretty, String.toList_ofList, scan_pretty]

theorem spells_compact (v : Json) : Spells v.compact v.reread := by
  rw [Spells, compact, String.toList_ofList, scan_compact]

/-- Whatever text spells a value is read if the value is not nested too deeply. -/
theorem Spells.read {text : String} {v : Json} (h : Spells text v) :
    read text = if v.depth ≤ maxDepth then some v else none := by
  have hv := readValue_tokens v [] [] (Nat.zero_le maxDepth)
  rw [List.append_nil, List.length_nil, Nat.zero_add] at hv
  rw [Json.read, readUpTo, show Token.scan text.toList = _ from h, Option.bind_some, hv]
  rfl

mutual

def Exact : Json → Prop
  | .num n => n.Exact
  | .arr items => ExactItems items
  | .obj members => ExactMembers members
  | .null | .bool _ | .str _ => True

def ExactItems : List Json → Prop
  | [] => True
  | x :: xs => Exact x ∧ ExactItems xs

def ExactMembers : Members → Prop
  | [] => True
  | (_, v) :: rest => Exact v ∧ ExactMembers rest

end

mutual

theorem reread_eq : (v : Json) → v.Exact → v.reread = v
  | .null, _ | .bool _, _ | .str _, _ => rfl
  | .num _, h => by rw [reread, Number.Exact.reread h]
  | .arr items, h => by rw [reread, rereadItems_eq items h]
  | .obj members, h => by rw [reread, rereadMembers_eq members h]

theorem rereadItems_eq : (xs : List Json) → ExactItems xs → rereadItems xs = xs
  | [], _ => rfl
  | x :: xs, h => by rw [rereadItems, reread_eq x h.1, rereadItems_eq xs h.2]

theorem rereadMembers_eq : (m : Members) → ExactMembers m → rereadMembers m = m
  | [], _ => rfl
  | (_, v) :: m, h => by rw [rereadMembers, reread_eq v h.1, rereadMembers_eq m h.2]

end

end JobEngine.Json
