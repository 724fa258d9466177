import Mathlib.Data.List.Nodup

namespace JobEngine.Lookup

variable {α β : Type} [BEq α] [LawfulBEq α] {m : List (α × β)} {k : α} {v : β}

theorem mem_of_lookup (h : m.lookup k = some v) : (k, v) ∈ m := by
  obtain ⟨l₁, l₂, rfl, -⟩ := List.lookup_eq_some_iff.1 h
  simp

theorem lookup_eq_some_iff_mem (hn : (m.map (·.1)).Nodup) : m.lookup k = some v ↔ (k, v) ∈ m := by
  refine ⟨mem_of_lookup, fun h ↦ ?_⟩
  obtain ⟨l₁, l₂, rfl⟩ := List.append_of_mem h
  refine List.lookup_eq_some_iff.2 ⟨l₁, l₂, rfl, fun x hx ↦ ?_⟩
  rw [List.map_append, List.nodup_append] at hn
  simpa using Ne.symm (hn.2.2 x.1 (List.mem_map_of_mem hx) k (by simp))

variable [DecidableEq α]

theorem lookup_cons (k : α) (x : α × β) (m : List (α × β)) :
    (x :: m).lookup k = if k = x.1 then some x.2 else m.lookup k := by
  rw [List.lookup_cons]
  by_cases h : k = x.1
  · simp [h]
  · have hb : (k == x.1) = false := by simpa using h
    simp [hb, h]

theorem lookup_filter (p : α → Prop) [DecidablePred p] (k : α) (m : List (α × β)) :
    (m.filter (p ·.1)).lookup k = if p k then m.lookup k else none := by
  induction m with
  | nil => simp
  | cons x m ih =>
    by_cases hx : p x.1
    · rw [List.filter_cons_of_pos (by simpa using hx), lookup_cons, lookup_cons, ih]
      by_cases hk : k = x.1
      · simp [hk, hx]
      · simp [hk]
    · rw [List.filter_cons_of_neg (by simpa using hx), ih, lookup_cons]
      by_cases hk : k = x.1
      · simp [hk, hx]
      · simp [hk]

theorem lookup_filter_ne (k k' : α) (m : List (α × β)) :
    (m.filter (·.1 ≠ k)).lookup k' = if k' = k then none else m.lookup k' := by
  rw [lookup_filter (· ≠ k), ite_not]

theorem lookup_map_values {γ : Type} (f : α → β → γ) (k : α) (m : List (α × β)) :
    (m.map fun x ↦ (x.1, f x.1 x.2)).lookup k = (m.lookup k).map (f k) := by
  induction m with
  | nil => rfl
  | cons x m ih =>
    rw [List.map_cons, lookup_cons, lookup_cons, ih]
    split
    · next h => simp [h]
    · rfl

end JobEngine.Lookup
