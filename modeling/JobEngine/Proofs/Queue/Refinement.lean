import JobEngine.Proofs.Queue.Arena

namespace JobEngine.Queue

variable {α : Type} {q : Queue α} {xs : List α}

/-- What one can ask of a queue. Entries go by a name, which need not be theirs alone. -/
inductive Request (α : Type)
  | enqueue (a : α)
  | dequeue
  | peek
  | size
  | isEmpty
  | delayNext
  | remove (name : String)

inductive Answer (α : Type)
  | done
  | emptyQueue
  | absent
  | entry (a : α)
  | name (s : String)
  | count (n : Nat)
  | flag (b : Bool)

variable (name : α → String)

def serve (q : Queue α) : Request α → Answer α × Queue α
  | .enqueue a => (.done, q.enqueue a)
  | .dequeue =>
    match q.dequeue with
    | none => (.emptyQueue, q)
    | some (a, q') => (.entry a, q')
  | .peek =>
    match q.peek with
    | none => (.emptyQueue, q)
    | some a => (.name (name a), q)
  | .size => (.count q.size, q)
  | .isEmpty => (.flag q.isEmpty, q)
  | .delayNext =>
    match q.delayNext with
    | none => (.emptyQueue, q)
    | some q' => (.done, q')
  | .remove s =>
    match q.remove (name · = s) with
    | none => (.absent, q)
    | some (a, q') => (.entry a, q')

def serveList (xs : List α) : Request α → Answer α × List α
  | .enqueue a => (.done, xs ++ [a])
  | .dequeue =>
    match xs with
    | [] => (.emptyQueue, [])
    | a :: rest => (.entry a, rest)
  | .peek =>
    match xs with
    | [] => (.emptyQueue, [])
    | a :: rest => (.name (name a), a :: rest)
  | .size => (.count xs.length, xs)
  | .isEmpty => (.flag xs.isEmpty, xs)
  | .delayNext =>
    match xs with
    | [] => (.emptyQueue, [])
    | [a] => (.done, [a])
    | a :: b :: rest => (.done, b :: a :: rest)
  | .remove s =>
    match xs.find? (name · = s) with
    | none => (.absent, xs)
    | some a => (.entry a, xs.eraseP (name · = s))

def serveAll {σ : Type} (serve : σ → Request α → Answer α × σ) : σ → List (Request α) →
    List (Answer α) × σ
  | s, [] => ([], s)
  | s, r :: rs => ((serve s r).1 :: (serveAll serve (serve s r).2 rs).1,
      (serveAll serve (serve s r).2 rs).2)

theorem Valid.isEmpty_eq (h : q.Valid) : q.isEmpty = q.toList.isEmpty := by
  obtain ⟨ys, h⟩ := h
  rw [isEmpty, h.head_eq, h.toList_eq]
  cases ys <;> rfl

theorem Valid.serve_eq (h : q.Valid) (r : Request α) :
    (serve name q r).1 = (serveList name q.toList r).1 ∧
      (serve name q r).2.toList = (serveList name q.toList r).2 ∧ (serve name q r).2.Valid := by
  cases r with
  | enqueue a =>
    obtain ⟨hv, hl⟩ := h.enqueue a
    exact ⟨rfl, hl, hv⟩
  | dequeue =>
    cases hq : q.dequeue with
    | none =>
      have hl := h.dequeue_eq_none_iff.1 hq
      simp only [serve, serveList, hq, hl]
      exact ⟨trivial, trivial, h⟩
    | some x =>
      obtain ⟨a, q'⟩ := x
      obtain ⟨hv, hl⟩ := h.dequeue_eq_some hq
      simp only [serve, serveList, hq, hl]
      exact ⟨trivial, trivial, hv⟩
  | peek =>
    have hp := h.peek_eq
    cases hl : q.toList with
    | nil =>
      rw [hl] at hp
      simp only [serve, serveList, hp, hl, List.head?_nil]
      exact ⟨trivial, trivial, h⟩
    | cons a rest =>
      rw [hl] at hp
      simp only [serve, serveList, hp, hl, List.head?_cons]
      exact ⟨trivial, trivial, h⟩
  | size => exact ⟨rfl, rfl, h⟩
  | isEmpty => exact ⟨congrArg Answer.flag h.isEmpty_eq, rfl, h⟩
  | delayNext =>
    cases hq : q.delayNext with
    | none =>
      have hl := h.delayNext_eq_none_iff.1 hq
      simp only [serve, serveList, hq, hl]
      exact ⟨trivial, trivial, h⟩
    | some q' =>
      obtain ⟨hv, ⟨hl, h1⟩ | ⟨a, b, rest, hl, hl'⟩⟩ := h.delayNext_eq_some hq
      · obtain ⟨a, ha⟩ := List.length_eq_one_iff.1 h1
        rw [ha] at hl
        simp only [serve, serveList, hq, ha]
        exact ⟨trivial, hl, hv⟩
      · simp only [serve, serveList, hq, hl]
        exact ⟨trivial, hl', hv⟩
  | remove s =>
    cases hq : q.remove (name · = s) with
    | none =>
      have hf : q.toList.find? (name · = s) = none := by
        rw [List.find?_eq_none]
        intro a ha
        simpa using h.remove_eq_none_iff.1 hq a ha
      simp only [serve, serveList, hq, hf]
      exact ⟨trivial, trivial, h⟩
    | some x =>
      obtain ⟨a, q'⟩ := x
      obtain ⟨hv, ha, as, bs, hl, has, hl'⟩ := h.remove_eq_some hq
      have hf : q.toList.find? (name · = s) = some a := by
        rw [hl, List.find?_eq_some_iff_append]
        exact ⟨ha, as, bs, rfl, fun b hb ↦ by simpa using has b hb⟩
      have he : q.toList.eraseP (name · = s) = as ++ bs := by
        rw [hl, List.eraseP_append_right _ (fun b hb ↦ by simpa using has b hb), List.eraseP_cons]
        simp only [ha, cond_true]
      simp only [serve, serveList, hq, hf]
      exact ⟨trivial, hl'.trans he.symm, hv⟩

theorem Valid.serveAll_eq (h : q.Valid) (rs : List (Request α)) :
    (serveAll (serve name) q rs).1 = (serveAll (serveList name) q.toList rs).1 ∧
      (serveAll (serve name) q rs).2.toList = (serveAll (serveList name) q.toList rs).2 ∧
      (serveAll (serve name) q rs).2.Valid := by
  induction rs generalizing q with
  | nil => exact ⟨rfl, rfl, h⟩
  | cons r rs ih =>
    obtain ⟨ha, hl, hv⟩ := h.serve_eq name r
    obtain ⟨has, hls, hvs⟩ := ih hv
    rw [hl] at has hls
    refine ⟨?_, hls, hvs⟩
    simp only [serveAll, ha, has]

theorem Segment.next_mem {slots : Array (Slot α)} {ys : List (Nat × α)} {start stop : Option Nat}
    (h : Segment slots start ys stop) {y : Nat × α} (hy : y ∈ ys) {s : Slot α}
    (hs : slots[y.1]? = some s) : s.next = stop ∨ ∃ z ∈ ys, s.next = some z.1 := by
  induction ys generalizing start with
  | nil => cases hy
  | cons x ys ih =>
    obtain ⟨-, next, hx, h⟩ := h
    rcases List.mem_cons.1 hy with rfl | hy
    · have he : s.next = next := by
        rw [hx, Option.some.injEq] at hs
        rw [← hs]
      rw [he]
      cases ys with
      | nil => exact .inl h
      | cons z zs => exact .inr ⟨z, by simp, h.1⟩
    · rcases ih h hy with hn | ⟨z, hz, hn⟩
      · exact .inl hn
      · exact .inr ⟨z, List.mem_cons_of_mem x hz, hn⟩

structure InBounds (q : Queue α) : Prop where
  head : ∀ i, q.head = some i → i < q.slots.size
  tail : ∀ i, q.tail = some i → i < q.slots.size
  free : ∀ i ∈ q.free, i < q.slots.size
  next : ∀ s ∈ q.slots, ∀ i, s.next = some i → i < q.slots.size

theorem Holds.inBounds {ys : List (Nat × α)} (h : q.Holds ys) : q.InBounds := by
  have hlt : ∀ y ∈ ys, y.1 < q.slots.size := by
    intro y hy
    have hm : y.1 ∈ ys.map (·.1) ++ q.free := List.mem_append_left _ (List.mem_map_of_mem hy)
    exact List.mem_range.1 (h.perm.mem_iff.1 hm)
  constructor
  · intro i hi
    rw [h.head_eq] at hi
    obtain ⟨y, hy, rfl⟩ := Option.map_eq_some_iff.1 hi
    exact hlt y (List.mem_of_head? hy)
  · intro i hi
    rw [h.tail_eq] at hi
    obtain ⟨y, hy, rfl⟩ := Option.map_eq_some_iff.1 hi
    exact hlt y (List.mem_of_getLast? hy)
  · intro i hi
    exact List.mem_range.1 (h.perm.mem_iff.1 (List.mem_append_right _ hi))
  · intro s hs i hi
    obtain ⟨j, hj, rfl⟩ := Array.mem_iff_getElem.1 hs
    have hsj : q.slots[j]? = some q.slots[j] := Array.getElem?_eq_getElem hj
    have hm : j ∈ ys.map (·.1) ++ q.free := h.perm.mem_iff.2 (List.mem_range.2 hj)
    rcases List.mem_append.1 hm with hm | hm
    · obtain ⟨y, hy, rfl⟩ := List.mem_map.1 hm
      rcases h.links.next_mem hy hsj with hn | ⟨z, hz, hn⟩
      · rw [hi] at hn
        cases hn
      · rw [hi, Option.some.injEq] at hn
        rw [hn]
        exact hlt z hz
    · rw [h.empty j hm, Option.some.injEq] at hsj
      rw [← hsj] at hi
      cases hi

/-- The links lead from the head through different slots to an end, over all entries in order. -/
def Ends (q : Queue α) : Prop :=
  ∃ ys, Segment q.slots q.head ys none ∧ (ys.map (·.1)).Nodup ∧ ys.map (·.1) = q.chain ∧
    ys.map (·.2) = q.toList

theorem Holds.ends {ys : List (Nat × α)} (h : q.Holds ys) : q.Ends :=
  ⟨ys, h.links, (List.nodup_append.1 h.nodup).1, h.chain_eq.symm, h.toList_eq.symm⟩

/-- A new queue answers any requests as an empty list does, and keeps the same entries. It tells
that it is empty exactly when the list is, and then stays as it is. -/
theorem serves_as_list (rs : List (Request α)) :
    let q := (serveAll (serve name) {} rs).2
    let xs := (serveAll (serveList name) [] rs).2
    (serveAll (serve name) {} rs).1 = (serveAll (serveList name) [] rs).1 ∧ q.toList = xs ∧
    (∀ r, r = .dequeue ∨ r = .peek ∨ r = .delayNext →
      ((serve name q r).1 = .emptyQueue ↔ xs = []) ∧ (xs = [] → (serve name q r).2 = q)) ∧
    q.InBounds ∧ q.Ends := by
  intro q xs
  obtain ⟨ha, hl, hv⟩ := valid_default.serveAll_eq name rs
  have hxs : q.toList = xs := hl
  have hq : q.Valid := hv
  obtain ⟨ys, h⟩ := hv
  refine ⟨ha, hl, ?_, h.inBounds, h.ends⟩
  rintro r (rfl | rfl | rfl)
  · rw [← hxs, ← hq.dequeue_eq_none_iff]
    cases hd : q.dequeue <;> simp [serve, hd]
  · rw [← hxs]
    have hp := hq.peek_eq
    cases hd : q.toList <;> simp [serve, hp, hd]
  · rw [← hxs, ← hq.delayNext_eq_none_iff]
    cases hd : q.delayNext <;> simp [serve, hd]

example : (serveAll (serve id) {} [.enqueue "a", .enqueue "b", .delayNext, .remove "a",
    .enqueue "c", .enqueue "b", .remove "b"]).2.toList = ["c", "b"] := by decide

end JobEngine.Queue
