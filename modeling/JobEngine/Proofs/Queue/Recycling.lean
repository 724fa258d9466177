import JobEngine.Proofs.Queue.Refinement

namespace JobEngine.Queue

variable {α : Type} {q q' : Queue α} {xs : List (Nat × α)} {a : α}

theorem Holds.length_add_free (h : q.Holds xs) : xs.length + q.free.length = q.slots.size := by
  simpa using h.perm.length_eq

theorem Valid.length_add_free (h : q.Valid) : q.toList.length + q.free.length = q.slots.size := by
  obtain ⟨xs, h⟩ := h
  rw [h.toList_eq, List.length_map, h.length_add_free]

@[simp]
theorem size_slots_link (q : Queue α) (i : ℕ) (next : Option ℕ) :
    (q.link i next).slots.size = q.slots.size := Array.size_modify

@[simp]
theorem size_slots_release (q : Queue α) (i : ℕ) : (q.release i).slots.size = q.slots.size :=
  Array.size_setIfInBounds

theorem size_slots_enqueue (q : Queue α) (a : α) :
    (q.enqueue a).slots.size = if q.free = [] then q.slots.size + 1 else q.slots.size := by
  have hp : (q.place a).2.slots.size =
      if q.free = [] then q.slots.size + 1 else q.slots.size := by
    cases hf : q.free with
    | nil => simp [place, hf]
    | cons i free => simp [place, hf]
  generalize hq : q.place a = r at hp
  obtain ⟨i, q'⟩ := r
  cases ht : q'.tail with
  | none => simpa only [enqueue, hq, ht] using hp
  | some t => simpa only [enqueue, hq, ht, size_slots_link] using hp

theorem size_slots_dequeue (h : q.dequeue = some (a, q')) : q'.slots.size = q.slots.size := by
  obtain ⟨i, -, h⟩ := Option.bind_eq_some_iff.1 h
  obtain ⟨s, -, h⟩ := Option.bind_eq_some_iff.1 h
  obtain ⟨b, -, h⟩ := Option.bind_eq_some_iff.1 h
  cases h
  exact size_slots_release _ _

theorem size_slots_delayNext (h : q.delayNext = some q') : q'.slots.size = q.slots.size := by
  obtain ⟨i, -, h⟩ := Option.bind_eq_some_iff.1 h
  split at h
  · cases h
    rfl
  · cases h
    exact (size_slots_link _ _ _).trans (size_slots_link _ _ _)

theorem size_slots_remove {p : α → Bool} (h : q.remove p = some (a, q')) :
    q'.slots.size = q.slots.size := by
  obtain ⟨⟨prev, i⟩, -, h⟩ := Option.bind_eq_some_iff.1 h
  obtain ⟨s, -, h⟩ := Option.bind_eq_some_iff.1 h
  obtain ⟨b, -, h⟩ := Option.bind_eq_some_iff.1 h
  cases h
  rw [size_slots_release]
  cases prev with
  | none => rfl
  | some j => exact size_slots_link _ _ _

variable (name : α → String)

/-- A request makes a new slot exactly if it brings the queue to more entries than it has slots. -/
theorem Valid.size_slots_serve (h : q.Valid) (r : Request α) :
    (serve name q r).2.slots.size = max q.slots.size (serve name q r).2.toList.length := by
  have hl := h.length_add_free
  have hl' := (h.serve_eq name r).2.2.length_add_free
  have hkept (hs : (serve name q r).2.slots.size = q.slots.size) :
      (serve name q r).2.slots.size = max q.slots.size (serve name q r).2.toList.length := by
    omega
  cases r with
  | enqueue a =>
    have hs : (serve name q (.enqueue a)).2.slots.size = _ := size_slots_enqueue q a
    have ha : (serve name q (.enqueue a)).2.toList.length = q.toList.length + 1 := by
      simp [serve, (h.enqueue a).2]
    split at hs
    · next hf =>
      rw [hf, List.length_nil] at hl
      omega
    · exact hkept hs
  | dequeue =>
    apply hkept
    simp only [serve]
    split
    · rfl
    · next hq => exact size_slots_dequeue hq
  | delayNext =>
    apply hkept
    simp only [serve]
    split
    · rfl
    · next hq => exact size_slots_delayNext hq
  | remove s =>
    apply hkept
    simp only [serve]
    split
    · rfl
    · next hq => exact size_slots_remove hq
  | peek =>
    apply hkept
    simp only [serve]
    split <;> rfl
  | size | isEmpty => exact hkept rfl

/-- The most entries that a list holds at any moment from now until it has served some requests. -/
def peak (xs : List α) : List (Request α) → ℕ
  | [] => xs.length
  | r :: rs => max xs.length (peak (serveList name xs r).2 rs)

theorem length_le_peak (xs : List α) (rs : List (Request α)) : xs.length ≤ peak name xs rs := by
  cases rs with
  | nil => exact le_rfl
  | cons r rs => exact Nat.le_max_left _ _

theorem Valid.size_slots_serveAll (h : q.Valid) (rs : List (Request α)) :
    (serveAll (serve name) q rs).2.slots.size = max q.slots.size (peak name q.toList rs) := by
  have hl := h.length_add_free
  induction rs generalizing q with
  | nil =>
    simp only [serveAll, peak]
    omega
  | cons r rs ih =>
    obtain ⟨-, hlist, hv⟩ := h.serve_eq name r
    have hs := h.size_slots_serve name r
    have hp := length_le_peak name (serve name q r).2.toList rs
    simp only [serveAll, peak, ih hv hv.length_add_free, ← hlist]
    omega

/-- After any requests to a new queue its slots are those on the way from the head, each met once
and with an entry, and the free ones, each listed once and empty. The way ends at the tail, and
there is no head and no tail exactly if there is no entry. There are as many slots as a plain list
would have had entries at the busiest moment. -/
theorem slots_recycled (rs : List (Request α)) :
    let q := (serveAll (serve name) {} rs).2
    ∃ xs : List (ℕ × α), Segment q.slots q.head xs none ∧ xs.map (·.1) = q.chain ∧
      xs.map (·.2) = q.toList ∧
      (q.chain ++ q.free).Perm (List.range q.slots.size) ∧
      (∀ i ∈ q.free, q.slots[i]? = some ⟨none, none⟩) ∧
      q.tail = q.chain.getLast? ∧ (q.head = none ↔ q.chain = []) ∧ (q.tail = none ↔ q.chain = []) ∧
      q.slots.size = peak name [] rs := by
  intro q
  obtain ⟨xs, h⟩ : q.Valid := (valid_default.serveAll_eq name rs).2.2
  have htail : q.tail = q.chain.getLast? := by rw [h.tail_eq, h.chain_eq, List.getLast?_map]
  have hhead : q.head = none ↔ q.chain = [] := by
    rw [h.head_eq, h.chain_eq, Option.map_eq_none_iff, List.head?_eq_none_iff, List.map_eq_nil_iff]
  have hsize : q.slots.size = _ := valid_default.size_slots_serveAll name rs
  refine ⟨xs, h.links, h.chain_eq.symm, h.toList_eq.symm, h.chain_eq ▸ h.perm, h.empty, htail,
    hhead, ?_, hsize.trans (Nat.zero_max _)⟩
  rw [htail, List.getLast?_eq_none_iff]

example : (serveAll (serve id) {} [.enqueue "a", .enqueue "b", .remove "a", .enqueue "c",
    .delayNext, .dequeue, .enqueue "d"]).2.slots.size = 2 := by decide

end JobEngine.Queue
