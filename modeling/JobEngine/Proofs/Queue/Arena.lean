import JobEngine.Queue
import Mathlib.Data.List.Nodup
import Mathlib.Data.List.Range

namespace JobEngine.Queue

variable {α : Type} {q : Queue α} {slots : Array (Slot α)} {xs ys : List (Nat × α)}

/-- The links lead from one slot along the list to another. -/
def Segment (slots : Array (Slot α)) : Option Nat → List (Nat × α) → Option Nat → Prop
  | start, [], stop => start = stop
  | start, (i, a) :: xs, stop =>
    start = some i ∧ ∃ next, slots[i]? = some ⟨some a, next⟩ ∧ Segment slots next xs stop

theorem segment_append {start stop : Option Nat} :
    Segment slots start (xs ++ ys) stop ↔
      ∃ middle, Segment slots start xs middle ∧ Segment slots middle ys stop := by
  induction xs generalizing start with
  | nil => simp [Segment]
  | cons x xs ih =>
    constructor
    · rintro ⟨hs, next, hx, h⟩
      obtain ⟨middle, h₁, h₂⟩ := ih.1 h
      exact ⟨middle, ⟨hs, next, hx, h₁⟩, h₂⟩
    · rintro ⟨middle, ⟨hs, next, hx, h₁⟩, h₂⟩
      exact ⟨hs, next, hx, ih.2 ⟨middle, h₁, h₂⟩⟩

theorem Segment.congr {slots' : Array (Slot α)} {start stop : Option Nat}
    (h : Segment slots start xs stop) (he : ∀ i ∈ xs.map (·.1), slots'[i]? = slots[i]?) :
    Segment slots' start xs stop := by
  induction xs generalizing start with
  | nil => exact h
  | cons x xs ih =>
    obtain ⟨hs, next, hx, h⟩ := h
    refine ⟨hs, next, ?_, ih h fun i hi ↦ he i (List.mem_cons_of_mem _ hi)⟩
    rw [he x.1 List.mem_cons_self, hx]

theorem Segment.getElem? {start stop : Option Nat} (h : Segment slots start xs stop)
    {x : Nat × α} (hx : x ∈ xs) : ∃ next, slots[x.1]? = some ⟨some x.2, next⟩ := by
  induction xs generalizing start with
  | nil => cases hx
  | cons y xs ih =>
    obtain ⟨-, next, hy, h⟩ := h
    rcases List.mem_cons.1 hx with rfl | hx
    · exact ⟨next, hy⟩
    · exact ih h hx

theorem Segment.modify {start stop : Option Nat} (h : Segment slots start xs stop) {i : Nat}
    (hi : i ∉ xs.map (·.1)) (f : Slot α → Slot α) :
    Segment (slots.modify i f) start xs stop :=
  h.congr fun j hj ↦ by rw [Array.getElem?_modify, if_neg (by rintro rfl; exact hi hj)]

theorem Segment.set {start stop : Option Nat} (h : Segment slots start xs stop) {i : Nat}
    (hi : i ∉ xs.map (·.1)) (s : Slot α) : Segment (slots.setIfInBounds i s) start xs stop :=
  h.congr fun j hj ↦ by rw [Array.getElem?_setIfInBounds_ne (by rintro rfl; exact hi hj)]

/-- The link of the last slot decides where a segment ends. -/
theorem Segment.redirect {start stop : Option Nat} {x : Nat × α}
    (h : Segment slots start (xs ++ [x]) stop) (hx : x.1 ∉ xs.map (·.1)) (stop' : Option Nat) :
    Segment (slots.modify x.1 ({ · with next := stop' })) start (xs ++ [x]) stop' := by
  obtain ⟨middle, h₁, rfl, next, hs, -⟩ := segment_append.1 h
  refine segment_append.2 ⟨_, h₁.modify hx _, rfl, stop', ?_, rfl⟩
  rw [Array.getElem?_modify, if_pos rfl, hs, Option.map_some]

/-- The queue holds these entries in these slots; all other slots are free. -/
structure Holds (q : Queue α) (xs : List (Nat × α)) : Prop where
  links : Segment q.slots q.head xs none
  tail_eq : q.tail = xs.getLast?.map (·.1)
  perm : (xs.map (·.1) ++ q.free).Perm (List.range q.slots.size)
  empty : ∀ i ∈ q.free, q.slots[i]? = some ⟨none, none⟩

namespace Holds

theorem nodup (h : q.Holds xs) : (xs.map (·.1) ++ q.free).Nodup :=
  h.perm.nodup_iff.2 List.nodup_range

theorem length_le (h : q.Holds xs) : xs.length ≤ q.slots.size := by
  have hl := h.perm.length_eq
  simp only [List.length_append, List.length_map, List.length_range] at hl
  omega

theorem head_eq (h : q.Holds xs) : q.head = xs.head?.map (·.1) := by
  cases xs with
  | nil => exact h.links
  | cons x xs => exact h.links.1

theorem follow_eq {fuel : Nat} {start : Option Nat} (h : Segment q.slots start xs none)
    (hf : xs.length ≤ fuel) : q.follow fuel start = xs.map (·.1) := by
  induction xs generalizing fuel start with
  | nil =>
    obtain rfl : start = none := h
    cases fuel <;> rfl
  | cons x xs ih =>
    obtain ⟨rfl, next, hx, h⟩ := h
    cases fuel with
    | zero => simp at hf
    | succ fuel =>
      simp only [follow, hx, List.map_cons]
      rw [ih h (by simpa using hf)]

theorem chain_eq (h : q.Holds xs) : q.chain = xs.map (·.1) := follow_eq h.links h.length_le

theorem content?_eq (h : q.Holds xs) {x : Nat × α} (hx : x ∈ xs) : q.content? x.1 = some x.2 := by
  obtain ⟨next, he⟩ := h.links.getElem? hx
  simp [content?, he]

theorem toList_eq (h : q.Holds xs) : q.toList = xs.map (·.2) := by
  rw [toList, h.chain_eq, List.filterMap_map, ← List.filterMap_eq_map]
  exact List.filterMap_congr fun x hx ↦ h.content?_eq hx

theorem default : ({} : Queue α).Holds [] := ⟨rfl, rfl, by simp, by simp⟩

theorem place (h : q.Holds xs) (a : α) :
    (q.place a).2.slots[(q.place a).1]? = some ⟨some a, none⟩ ∧
    (∀ i ∈ xs.map (·.1), (q.place a).2.slots[i]? = q.slots[i]?) ∧
    (xs.map (·.1) ++ (q.place a).1 :: (q.place a).2.free).Perm
      (List.range (q.place a).2.slots.size) ∧
    (∀ i ∈ (q.place a).2.free, (q.place a).2.slots[i]? = some ⟨none, none⟩) ∧
    (q.place a).2.head = q.head ∧ (q.place a).2.tail = q.tail := by
  have hn := h.nodup
  have hp := h.perm
  cases hf : q.free with
  | nil =>
    rw [hf, List.append_nil] at hp
    simp only [Queue.place, hf]
    refine ⟨by simp, fun i hi ↦ ?_, ?_, by simp, trivial, trivial⟩
    · have hi := List.mem_range.1 (hp.mem_iff.1 hi)
      rw [Array.getElem?_push, if_neg (by omega)]
    · rw [Array.size_push, List.range_succ]
      exact hp.append_right _
  | cons j free =>
    rw [hf] at hp hn
    have hj : j < q.slots.size := List.mem_range.1 (hp.mem_iff.1 (by simp))
    have hne : ∀ i, i ∈ xs.map (·.1) ∨ i ∈ free → j ≠ i := by
      rintro i hi rfl
      simp only [List.nodup_append, List.nodup_cons] at hn
      rcases hi with hi | hi
      · exact hn.2.2 j hi j List.mem_cons_self rfl
      · exact hn.2.1.1 hi
    simp only [Queue.place, hf]
    refine ⟨by simp [hj], fun i hi ↦ ?_, by simpa using hp, fun i hi ↦ ?_, trivial, trivial⟩
    · rw [Array.getElem?_setIfInBounds_ne (hne i (.inl hi))]
    · rw [Array.getElem?_setIfInBounds_ne (hne i (.inr hi))]
      exact h.empty i (hf ▸ List.mem_cons_of_mem _ hi)

theorem enqueue (h : q.Holds xs) (a : α) : ∃ i, (q.enqueue a).Holds (xs ++ [(i, a)]) := by
  obtain ⟨hslot, hkeep, hperm, hempty, hhead, htail⟩ := h.place a
  have hn := hperm.nodup_iff.2 List.nodup_range
  have hlinks : Segment (q.place a).2.slots (q.place a).2.head xs none :=
    hhead ▸ h.links.congr hkeep
  refine ⟨(q.place a).1, ?_⟩
  generalize hq : q.place a = r at *
  obtain ⟨i, q'⟩ := r
  have hi : i ∉ xs.map (·.1) := fun hi ↦
    (List.nodup_append.1 hn).2.2 i hi i List.mem_cons_self rfl
  have hp : ((xs ++ [(i, a)]).map (·.1) ++ q'.free).Perm (List.range q'.slots.size) := by
    simpa using hperm
  rcases List.eq_nil_or_concat' xs with rfl | ⟨ys, y, rfl⟩
  · have ht : q'.tail = none := htail.trans h.tail_eq
    simp only [Queue.enqueue, hq, ht]
    exact ⟨⟨rfl, none, hslot, rfl⟩, rfl, hp, hempty⟩
  · have ht : q'.tail = some y.1 := htail.trans (by simp [h.tail_eq])
    have hy : y.1 ≠ i := fun he ↦ hi (by simp [he])
    have hys : y.1 ∉ ys.map (·.1) := by
      have hd := (List.nodup_append.1 h.nodup).1
      rw [List.map_append, List.nodup_append] at hd
      exact fun hm ↦ hd.2.2 _ hm _ (by simp) rfl
    have hfree : y.1 ∉ q'.free := fun hm ↦
      (List.nodup_append.1 hn).2.2 y.1 (by simp) y.1 (List.mem_cons_of_mem _ hm) rfl
    simp only [Queue.enqueue, hq, ht]
    refine ⟨segment_append.2 ⟨some i, hlinks.redirect hys _, rfl, none, ?_, rfl⟩, by simp, ?_, ?_⟩
    · rw [link, Array.getElem?_modify, if_neg hy, hslot]
    · simpa only [link, Array.size_modify] using hp
    · intro j hj
      rw [link, Array.getElem?_modify, if_neg (by rintro rfl; exact hfree hj)]
      exact hempty j hj

/-- A slot to which no link leads any more is emptied and becomes free. -/
theorem release {i : Nat} (hl : Segment q.slots q.head xs none)
    (ht : q.tail = xs.getLast?.map (·.1))
    (hp : (xs.map (·.1) ++ i :: q.free).Perm (List.range q.slots.size))
    (he : ∀ j ∈ q.free, q.slots[j]? = some ⟨none, none⟩) : (q.release i).Holds xs := by
  have hn := hp.nodup_iff.2 List.nodup_range
  have hi : i < q.slots.size := List.mem_range.1 (hp.mem_iff.1 (by simp))
  have hx : i ∉ xs.map (·.1) := fun hx ↦
    (List.nodup_append.1 hn).2.2 i hx i List.mem_cons_self rfl
  refine ⟨hl.set hx _, ht, by simpa [Queue.release] using hp, fun j hj ↦ ?_⟩
  by_cases hij : i = j
  · subst hij
    simp [Queue.release, hi]
  · rw [Queue.release, Array.getElem?_setIfInBounds_ne hij]
    exact he j ((List.mem_cons.1 hj).resolve_left (Ne.symm hij))

theorem dequeue_nil (h : q.Holds []) : q.dequeue = none := by
  have hh : q.head = none := h.links
  simp [Queue.dequeue, hh]

theorem dequeue_cons {x : Nat × α} (h : q.Holds (x :: xs)) :
    ∃ q', q.dequeue = some (x.2, q') ∧ q'.Holds xs := by
  obtain ⟨hh, next, hs, hl⟩ := h.links
  let rest : Queue α :=
    { q with head := next, tail := if next.isNone then none else q.tail }
  have hr : q.dequeue = some (x.2, rest.release x.1) := by simp [Queue.dequeue, hh, hs, rest]
  refine ⟨_, hr, release hl ?_ ?_ h.empty⟩
  · cases xs with
    | nil =>
      obtain rfl : next = none := hl
      rfl
    | cons y ys =>
      obtain ⟨rfl, -⟩ := hl
      simp [rest, h.tail_eq, List.getLast?_cons_cons]
  · exact List.perm_middle.trans h.perm

theorem delayNext_nil (h : q.Holds []) : q.delayNext = none := by
  have hh : q.head = none := h.links
  simp [Queue.delayNext, hh]

theorem delayNext_singleton {x : Nat × α} (h : q.Holds [x]) : q.delayNext = some q := by
  obtain ⟨hh, next, hs, hl⟩ := h.links
  obtain rfl : next = none := hl
  simp [Queue.delayNext, hh, hs]

theorem delayNext_cons {x y : Nat × α} (h : q.Holds (x :: y :: xs)) :
    ∃ q', q.delayNext = some q' ∧ q'.Holds (y :: x :: xs) := by
  obtain ⟨hh, _, hx, rfl, next, hy, hl⟩ := h.links
  have hn := (List.nodup_append.1 h.nodup).1
  simp only [List.map_cons, List.nodup_cons, List.mem_cons, not_or] at hn
  obtain ⟨⟨hxy, hxs⟩, hys, -⟩ := hn
  let swapped : Queue α :=
    { (q.link x.1 next).link y.1 (some x.1) with
      head := some y.1
      tail := if q.tail = some y.1 then some x.1 else q.tail }
  have hr : q.delayNext = some swapped := by simp [Queue.delayNext, hh, hx, hy, swapped]
  have hlx : swapped.slots[x.1]? = some ⟨some x.2, next⟩ := by
    simp [swapped, link, Array.getElem?_modify, hx, Ne.symm hxy]
  have hly : swapped.slots[y.1]? = some ⟨some y.2, some x.1⟩ := by
    simp [swapped, link, Array.getElem?_modify, hy, hxy]
  have hlxs : Segment swapped.slots next xs none :=
    (hl.modify hxs ({ · with next })).modify hys ({ · with next := some x.1 })
  refine ⟨swapped, hr, ⟨rfl, _, hly, rfl, _, hlx, hlxs⟩, ?_, ?_, fun i hi ↦ ?_⟩
  · cases hz : xs.getLast? with
    | none =>
      obtain rfl : xs = [] := by simpa using hz
      simp [swapped, h.tail_eq]
    | some z =>
      have hm : z.1 ∈ xs.map (·.1) := List.mem_map_of_mem (List.mem_of_getLast? hz)
      have hzy : z.1 ≠ y.1 := fun he ↦ hys (he ▸ hm)
      simp [swapped, h.tail_eq, List.getLast?_cons, hz, hzy]
  · simpa [swapped, link] using (List.Perm.swap _ _ _).trans h.perm
  · have hd := (List.nodup_append.1 h.nodup).2.2
    have hix : x.1 ≠ i := hd x.1 (by simp) i hi
    have hiy : y.1 ≠ i := hd y.1 (by simp) i hi
    simpa [swapped, link, Array.getElem?_modify, hix, hiy] using h.empty i hi

theorem locate_eq_none {p : α → Bool} (he : ∀ x ∈ xs, q.content? x.1 = some x.2)
    (hp : ∀ x ∈ xs, p x.2 = false) (prev : Option Nat) :
    q.locate p (xs.map (·.1)) prev = none := by
  induction xs generalizing prev with
  | nil => rfl
  | cons x xs ih =>
    have hx : (q.content? x.1).any p = false := by
      rw [he x List.mem_cons_self, Option.any_some, hp x List.mem_cons_self]
    simp only [List.map_cons, locate, hx]
    exact ih (fun y hy ↦ he y (List.mem_cons_of_mem _ hy))
      (fun y hy ↦ hp y (List.mem_cons_of_mem _ hy)) _

theorem locate_append {p : α → Bool} {x : Nat × α}
    (he : ∀ y ∈ xs ++ x :: ys, q.content? y.1 = some y.2) (hp : ∀ y ∈ xs, p y.2 = false)
    (hx : p x.2 = true) (prev : Option Nat) :
    q.locate p ((xs ++ x :: ys).map (·.1)) prev =
      some ((xs.getLast?.map (·.1)).or prev, x.1) := by
  induction xs generalizing prev with
  | nil => simp [locate, he x (by simp), hx]
  | cons y xs ih =>
    have hy : (q.content? y.1).any p = false := by
      rw [he y (by simp), Option.any_some, hp y List.mem_cons_self]
    simp only [List.cons_append, List.map_cons, locate, hy, Bool.false_eq_true, ↓reduceIte]
    rw [ih (fun z hz ↦ he z (List.mem_cons_of_mem _ hz))
      (fun z hz ↦ hp z (List.mem_cons_of_mem _ hz)), List.getLast?_cons]
    cases xs.getLast? <;> simp

theorem remove_eq_none {p : α → Bool} (h : q.Holds xs) (hp : ∀ x ∈ xs, p x.2 = false) :
    q.remove p = none := by
  simp [Queue.remove, h.chain_eq, locate_eq_none (fun x hx ↦ h.content?_eq hx) hp]

theorem remove_append {p : α → Bool} {x : Nat × α} (h : q.Holds (xs ++ x :: ys))
    (hp : ∀ y ∈ xs, p y.2 = false) (hx : p x.2 = true) :
    ∃ q', q.remove p = some (x.2, q') ∧ q'.Holds (xs ++ ys) := by
  obtain ⟨_, hl, rfl, next, hs, hl'⟩ := segment_append.1 h.links
  have hloc : q.locate p q.chain none = some (xs.getLast?.map (·.1), x.1) := by
    rw [h.chain_eq, locate_append (fun y hy ↦ h.content?_eq hy) hp hx, Option.or_none]
  have hn := (List.nodup_append.1 h.nodup).1
  rw [List.map_append, List.map_cons, List.nodup_append, List.nodup_cons] at hn
  obtain ⟨hxs, ⟨hys, -⟩, hd⟩ := hn
  have hperm : ((xs ++ ys).map (·.1) ++ x.1 :: q.free).Perm (List.range q.slots.size) := by
    refine List.Perm.trans ?_ h.perm
    simpa using List.perm_middle.append_left (xs.map (·.1))
  have htail : (if q.tail = some x.1 then xs.getLast?.map (·.1) else q.tail) =
      (xs ++ ys).getLast?.map (·.1) := by
    rw [h.tail_eq, List.getLast?_append, List.getLast?_append, List.getLast?_cons]
    cases hz : ys.getLast? with
    | none => simp
    | some z =>
      have hzx : z.1 ≠ x.1 := fun he ↦
        hys (he ▸ List.mem_map_of_mem (List.mem_of_getLast? hz))
      simp [hzx]
  rcases List.eq_nil_or_concat' xs with rfl | ⟨zs, z, rfl⟩
  · let rest : Queue α :=
      { q with head := next, tail := if q.tail = some x.1 then none else q.tail }
    have hr : q.remove p = some (x.2, rest.release x.1) := by
      simp [Queue.remove, hloc, hs, rest]
    exact ⟨_, hr, release hl' htail hperm h.empty⟩
  · have hz : z.1 ∉ zs.map (·.1) := by
      rw [List.map_append, List.nodup_append] at hxs
      exact fun hm ↦ hxs.2.2 _ hm z.1 (by simp) rfl
    have hzys : z.1 ∉ ys.map (·.1) := fun hm ↦
      hd z.1 (by simp) z.1 (List.mem_cons_of_mem _ hm) rfl
    let rest : Queue α :=
      { q.link z.1 next with tail := if q.tail = some x.1 then some z.1 else q.tail }
    have hr : q.remove p = some (x.2, rest.release x.1) := by
      simp [Queue.remove, hloc, hs, rest]
    have hlinks : Segment rest.slots rest.head (zs ++ [z] ++ ys) none :=
      segment_append.2 ⟨next, hl.redirect hz next, hl'.modify hzys ({ · with next })⟩
    refine ⟨_, hr, release hlinks ?_ ?_ fun i hi ↦ ?_⟩
    · rw [← htail]
      simp [rest]
    · simpa [rest, link] using hperm
    · have hzi : z.1 ≠ i := (List.nodup_append.1 h.nodup).2.2 z.1 (by simp) i hi
      simpa [rest, link, Array.getElem?_modify, hzi] using h.empty i hi

end Holds

theorem first_or_none (p : α → Bool) (xs : List (Nat × α)) :
    (∀ x ∈ xs, p x.2 = false) ∨
      ∃ ys x zs, xs = ys ++ x :: zs ∧ p x.2 = true ∧ ∀ y ∈ ys, p y.2 = false := by
  cases h : xs.find? (p ·.2) with
  | none => exact .inl (by simpa using h)
  | some x =>
    obtain ⟨hx, ys, zs, he, hy⟩ := List.find?_eq_some_iff_append.1 h
    exact .inr ⟨ys, x, zs, he, hx, by simpa using hy⟩

def Valid (q : Queue α) : Prop := ∃ xs, q.Holds xs

theorem valid_default : ({} : Queue α).Valid := ⟨[], .default⟩

@[simp]
theorem toList_default : ({} : Queue α).toList = [] := rfl

namespace Valid

theorem enqueue (h : q.Valid) (a : α) :
    (q.enqueue a).Valid ∧ (q.enqueue a).toList = q.toList ++ [a] := by
  obtain ⟨xs, h⟩ := h
  obtain ⟨i, h'⟩ := h.enqueue a
  exact ⟨⟨_, h'⟩, by rw [h'.toList_eq, h.toList_eq, List.map_append]; rfl⟩

theorem peek_eq (h : q.Valid) : q.peek = q.toList.head? := by
  obtain ⟨xs, h⟩ := h
  rw [peek, h.head_eq, h.toList_eq]
  cases xs with
  | nil => rfl
  | cons x xs => exact h.content?_eq List.mem_cons_self

theorem dequeue_eq_none_iff (h : q.Valid) : q.dequeue = none ↔ q.toList = [] := by
  obtain ⟨xs, h⟩ := h
  rw [h.toList_eq]
  cases xs with
  | nil => simp [h.dequeue_nil]
  | cons x xs =>
    obtain ⟨q', hq, -⟩ := h.dequeue_cons
    simp [hq]

theorem dequeue_eq_some (h : q.Valid) {a : α} {q' : Queue α} (hq : q.dequeue = some (a, q')) :
    q'.Valid ∧ q.toList = a :: q'.toList := by
  obtain ⟨xs, h⟩ := h
  cases xs with
  | nil => simp [h.dequeue_nil] at hq
  | cons x xs =>
    obtain ⟨r, hr, h'⟩ := h.dequeue_cons
    obtain ⟨rfl, rfl⟩ : x.2 = a ∧ r = q' := by simpa [hr] using hq
    exact ⟨⟨_, h'⟩, by rw [h.toList_eq, h'.toList_eq, List.map_cons]⟩

theorem delayNext_eq_none_iff (h : q.Valid) : q.delayNext = none ↔ q.toList = [] := by
  obtain ⟨xs, h⟩ := h
  rw [h.toList_eq]
  match xs, h with
  | [], h => simp [h.delayNext_nil]
  | [x], h => simp [h.delayNext_singleton]
  | x :: y :: xs, h =>
    obtain ⟨q', hq, -⟩ := h.delayNext_cons
    simp [hq]

theorem delayNext_eq_some (h : q.Valid) {q' : Queue α} (hq : q.delayNext = some q') :
    q'.Valid ∧ ((q'.toList = q.toList ∧ q.toList.length = 1) ∨
      ∃ a b rest, q.toList = a :: b :: rest ∧ q'.toList = b :: a :: rest) := by
  obtain ⟨xs, h⟩ := h
  match xs, h with
  | [], h => simp [h.delayNext_nil] at hq
  | [x], h =>
    obtain rfl : q = q' := by simpa [h.delayNext_singleton] using hq
    exact ⟨⟨_, h⟩, .inl ⟨rfl, by simp [h.toList_eq]⟩⟩
  | x :: y :: xs, h =>
    obtain ⟨r, hr, h'⟩ := h.delayNext_cons
    obtain rfl : r = q' := by simpa [hr] using hq
    exact ⟨⟨_, h'⟩, .inr ⟨x.2, y.2, xs.map (·.2), by simp [h.toList_eq], by simp [h'.toList_eq]⟩⟩

theorem remove_eq_none_iff (h : q.Valid) {p : α → Bool} :
    q.remove p = none ↔ ∀ a ∈ q.toList, p a = false := by
  obtain ⟨xs, h⟩ := h
  rw [h.toList_eq, List.forall_mem_map]
  constructor
  · intro hq
    rcases first_or_none p xs with hp | ⟨ys, x, zs, rfl, hx, hp⟩
    · exact hp
    · obtain ⟨q', hr, -⟩ := h.remove_append hp hx
      simp [hr] at hq
  · exact h.remove_eq_none

theorem remove_eq_some (h : q.Valid) {p : α → Bool} {a : α} {q' : Queue α}
    (hq : q.remove p = some (a, q')) :
    q'.Valid ∧ p a = true ∧ ∃ as bs, q.toList = as ++ a :: bs ∧ (∀ b ∈ as, p b = false) ∧
      q'.toList = as ++ bs := by
  obtain ⟨xs, h⟩ := h
  rcases first_or_none p xs with hp | ⟨ys, x, zs, rfl, hx, hp⟩
  · simp [h.remove_eq_none hp] at hq
  · obtain ⟨r, hr, h'⟩ := h.remove_append hp hx
    obtain ⟨rfl, rfl⟩ : x.2 = a ∧ r = q' := by simpa [hr] using hq
    refine ⟨⟨_, h'⟩, hx, ys.map (·.2), zs.map (·.2), by simp [h.toList_eq], ?_,
      by simp [h'.toList_eq]⟩
    exact List.forall_mem_map.2 hp

end Valid

end JobEngine.Queue
