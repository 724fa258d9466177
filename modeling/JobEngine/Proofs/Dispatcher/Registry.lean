import JobEngine.Dispatcher.Registry
import JobEngine.Proofs.Lookup
import Mathlib.Data.List.Perm.Basic

namespace JobEngine.Registry

variable {r : Registry} {j : Job} {id : String}

theorem get?_erase (r : Registry) (id id' : String) :
    (r.erase id).get? id' = if id' = id then none else r.get? id' :=
  Lookup.lookup_filter_ne id id' r.entries

@[simp]
theorem get?_erase_self (r : Registry) (id : String) : (r.erase id).get? id = none := by
  rw [get?_erase, if_pos rfl]

theorem get?_insert (r : Registry) (j : Job) (id : String) :
    (r.insert j).get? id = if id = j.id then some j else r.get? id := by
  rw [get?, insert, Lookup.lookup_cons]
  split
  · rfl
  · next h => exact (get?_erase r j.id id).trans (if_neg h)

@[simp]
theorem get?_insert_self (r : Registry) (j : Job) : (r.insert j).get? j.id = some j := by
  rw [get?_insert, if_pos rfl]

theorem get?_insert_of_ne (h : id ≠ j.id) : (r.insert j).get? id = r.get? id := by
  rw [get?_insert, if_neg h]

@[simp]
theorem get?_default (id : String) : ({} : Registry).get? id = none := rfl

structure Keyed (r : Registry) : Prop where
  nodup : (r.entries.map (·.1)).Nodup
  id_eq : ∀ x ∈ r.entries, x.2.id = x.1

theorem keyed_default : ({} : Registry).Keyed := ⟨by simp, by simp⟩

namespace Keyed

theorem get?_eq_some_iff (h : r.Keyed) : r.get? id = some j ↔ (id, j) ∈ r.entries :=
  Lookup.lookup_eq_some_iff_mem h.nodup

theorem id_of_get? (h : r.Keyed) (hj : r.get? id = some j) : j.id = id :=
  h.id_eq _ (h.get?_eq_some_iff.1 hj)

theorem get?_of_mem_jobs (h : r.Keyed) (hj : j ∈ r.jobs) : r.get? j.id = some j := by
  obtain ⟨x, hx, rfl⟩ := List.mem_map.1 hj
  exact h.get?_eq_some_iff.2 (by rw [h.id_eq x hx]; exact hx)

theorem mem_jobs_iff (h : r.Keyed) : j ∈ r.jobs ↔ r.get? j.id = some j :=
  ⟨h.get?_of_mem_jobs, fun hj ↦ List.mem_map_of_mem (h.get?_eq_some_iff.1 hj)⟩

theorem erase (h : r.Keyed) (id : String) : (r.erase id).Keyed :=
  ⟨h.nodup.sublist ((List.filter_sublist).map _),
    fun x hx ↦ h.id_eq x (List.mem_of_mem_filter hx)⟩

theorem insert (h : r.Keyed) (j : Job) : (r.insert j).Keyed := by
  have he := h.erase j.id
  refine ⟨List.nodup_cons.2 ⟨fun hm ↦ ?_, he.nodup⟩, fun x hx ↦ ?_⟩
  · obtain ⟨x, hx, hxj⟩ := List.mem_map.1 hm
    simpa [hxj] using (List.mem_filter.1 hx).2
  · rcases List.mem_cons.1 hx with rfl | hx
    · rfl
    · exact he.id_eq x hx

theorem nodup_ids (h : r.Keyed) : (r.jobs.map (·.id)).Nodup := by
  have he : r.jobs.map (·.id) = r.entries.map (·.1) := by
    rw [jobs, List.map_map]
    exact List.map_congr_left fun x hx ↦ h.id_eq x hx
  exact he ▸ h.nodup

theorem count_ids (h : r.Keyed) (id : String) :
    (r.jobs.map (·.id)).count id = if (r.get? id).isSome then 1 else 0 := by
  have hm : id ∈ r.jobs.map (·.id) ↔ (r.get? id).isSome = true := by
    rw [List.mem_map, Option.isSome_iff_exists]
    constructor
    · rintro ⟨j, hj, rfl⟩
      exact ⟨j, h.mem_jobs_iff.1 hj⟩
    · rintro ⟨j, hj⟩
      obtain rfl := h.id_of_get? hj
      exact ⟨j, h.mem_jobs_iff.2 hj, rfl⟩
  simp only [h.nodup_ids.count, hm]

end Keyed

theorem mem_listed : j ∈ r.listed ↔ j ∈ r.jobs := List.mem_mergeSort

theorem nodup_listed_ids (h : r.Keyed) : (r.listed.map (·.id)).Nodup :=
  ((List.mergeSort_perm r.jobs listedBefore).map _).nodup_iff.2 h.nodup_ids

theorem listedBefore_iff {a b : Job} : listedBefore a b = true ↔
    a.start.rank < b.start.rank ∨ a.start.rank ≤ b.start.rank ∧ a.id ≤ b.id := by
  simp only [listedBefore, Bool.or_eq_true, Bool.and_eq_true, decide_eq_true_eq]
  exact Iff.rfl

theorem listed_sorted (r : Registry) : r.listed.Pairwise (·.start ≤ ·.start) := by
  have htrans (a b c : Job) (hab : listedBefore a b = true) (hbc : listedBefore b c = true) :
      listedBefore a c = true := by
    rw [listedBefore_iff] at hab hbc ⊢
    rcases hab with hab | ⟨hab, ha⟩
    · left
      omega
    · rcases hbc with hbc | ⟨hbc, hc⟩
      · left
        omega
      · exact .inr ⟨by omega, String.le_trans ha hc⟩
  have htotal (a b : Job) : (listedBefore a b || listedBefore b a) = true := by
    rw [Bool.or_eq_true, listedBefore_iff, listedBefore_iff]
    rcases Int.lt_trichotomy a.start.rank b.start.rank with h | h | h
    · exact .inl (.inl h)
    · exact (String.le_total a.id b.id).imp (fun hid ↦ .inr ⟨Int.le_of_eq h, hid⟩)
        fun hid ↦ .inr ⟨Int.le_of_eq h.symm, hid⟩
    · exact .inr (.inl h)
  refine (List.pairwise_mergeSort htrans htotal r.jobs).imp fun h ↦ ?_
  rw [listedBefore_iff] at h
  change (_ : Job).start.rank ≤ (_ : Job).start.rank
  omega

/-- Every job is unfinished, or has finished well or badly. -/
theorem size_eq (r : Registry) :
    r.size = r.jobs.countP (fun j ↦ !j.finished) +
      r.jobs.countP (fun j ↦ j.finished && j.error.isNone) +
      r.jobs.countP (fun j ↦ j.finished && j.error.isSome) := by
  have hs : r.size = r.jobs.length := by rw [size, jobs, List.length_map]
  rw [hs]
  induction r.jobs with
  | nil => rfl
  | cons j js ih =>
    simp only [List.length_cons, List.countP_cons, ih]
    cases j.finished <;> cases j.error <;> simp <;> omega

theorem Keyed.countP_unfinished (h : r.Keyed) {ids : List String} (hn : ids.Nodup)
    (hi : ∀ id, id ∈ ids ↔ ∃ j, r.get? id = some j ∧ j.finished = false) :
    r.jobs.countP (fun j ↦ !j.finished) = ids.length := by
  have hp : ((r.jobs.filter (!·.finished)).map (·.id)).Perm ids := by
    refine (List.perm_ext_iff_of_nodup
      (h.nodup_ids.sublist (List.filter_sublist.map _)) hn).2 fun id ↦ ?_
    rw [hi, List.mem_map]
    constructor
    · rintro ⟨j, hj, rfl⟩
      obtain ⟨hj, hf⟩ := List.mem_filter.1 hj
      exact ⟨j, h.get?_of_mem_jobs hj, by simpa using hf⟩
    · rintro ⟨j, hj, hf⟩
      obtain rfl := h.id_of_get? hj
      exact ⟨j, List.mem_filter.2 ⟨h.mem_jobs_iff.2 hj, by simpa using hf⟩, rfl⟩
  rw [List.countP_eq_length_filter, ← hp.length_eq, List.length_map]

end JobEngine.Registry
