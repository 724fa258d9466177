import JobEngine.Dispatcher.Query
import JobEngine.Proofs.Dispatcher.Registry
import JobEngine.Proofs.Dispatcher.Run

namespace JobEngine.Registry

variable {r r' : Registry} {j : Job} {start : String}

def Begins (start : String) (j : Job) : Prop := start.toList <+: j.id.toList

instance (start : String) (j : Job) : Decidable (Begins start j) :=
  inferInstanceAs (Decidable (_ <+: _))

theorem begins_self (j : Job) : Begins j.id j := List.prefix_rfl

theorem Keyed.perm (h : r.Keyed) (hp : r'.entries.Perm r.entries) : r'.Keyed :=
  ⟨(hp.map _).nodup_iff.2 h.nodup, fun x hx ↦ h.id_eq x (hp.mem_iff.1 hx)⟩

theorem filter_eq_singleton_iff {α : Type} {xs : List α} (hn : xs.Nodup) {p : α → Bool} {x : α} :
    xs.filter p = [x] ↔ x ∈ xs ∧ p x = true ∧ ∀ y ∈ xs, p y = true → y = x := by
  constructor
  · intro h
    have hmem (y : α) : y ∈ xs ∧ p y = true ↔ y = x := by
      rw [← List.mem_filter, h, List.mem_singleton]
    obtain ⟨hx, hp⟩ := (hmem x).2 rfl
    exact ⟨hx, hp, fun y hy hpy ↦ (hmem y).1 ⟨hy, hpy⟩⟩
  · rintro ⟨hx, hp, huniq⟩
    have hperm : (xs.filter p).Perm [x] := by
      refine (List.perm_ext_iff_of_nodup (hn.filter p) (List.nodup_singleton x)).2 fun y ↦ ?_
      rw [List.mem_filter, List.mem_singleton]
      exact ⟨fun h ↦ huniq y h.1 h.2, fun h ↦ h ▸ ⟨hx, hp⟩⟩
    exact List.perm_singleton.1 hperm

namespace Keyed

theorem nodup_jobs (h : r.Keyed) : r.jobs.Nodup := h.nodup_ids.of_map

theorem eq_of_id_eq (h : r.Keyed) {k : Job} (hj : j ∈ r.jobs) (hk : k ∈ r.jobs)
    (he : j.id = k.id) : j = k := by
  have hj := h.get?_of_mem_jobs hj
  rw [he, h.get?_of_mem_jobs hk, Option.some.injEq] at hj
  exact hj.symm

theorem find?_of_id (h : r.Keyed) (hj : j ∈ r.jobs) (hne : j.id ≠ "") : r.find? j.id = some j := by
  simp only [find?, if_neg hne, h.get?_of_mem_jobs hj]

theorem find?_of_no_id (h : r.Keyed) (hne : start ≠ "") (hno : ∀ j ∈ r.jobs, j.id ≠ start) :
    r.find? start = some j ↔
      j ∈ r.jobs ∧ Begins start j ∧ ∀ k ∈ r.jobs, Begins start k → k = j := by
  have hget : r.get? start = none := by
    refine Option.eq_none_iff_forall_ne_some.2 fun k hk ↦ ?_
    obtain rfl := h.id_of_get? hk
    exact hno k (h.mem_jobs_iff.2 hk) rfl
  have hbegins (k : Job) : start.toList.isPrefixOf k.id.toList = true ↔ Begins start k :=
    List.isPrefixOf_iff_prefix
  have hone := filter_eq_singleton_iff h.nodup_jobs
    (p := fun k ↦ start.toList.isPrefixOf k.id.toList) (x := j)
  simp only [hbegins] at hone
  rw [← hone]
  simp only [find?, if_neg hne, hget]
  split
  · next k hk => rw [hk, Option.some.injEq, List.cons.injEq, and_iff_left rfl]
  · next hk => exact iff_of_false nofun (hk j)

theorem find?_eq_some_iff (h : r.Keyed) : r.find? start = some j ↔ start ≠ "" ∧ j ∈ r.jobs ∧
    (j.id = start ∨ Begins start j ∧ ∀ k ∈ r.jobs, Begins start k → k = j) := by
  rcases eq_or_ne start "" with rfl | hne
  · simp [find?]
  by_cases hid : ∃ k ∈ r.jobs, k.id = start
  · obtain ⟨k, hk, rfl⟩ := hid
    rw [h.find?_of_id hk hne, Option.some.injEq]
    constructor
    · rintro rfl
      exact ⟨hne, hk, .inl rfl⟩
    · rintro ⟨-, hj, hid | ⟨-, huniq⟩⟩
      · exact h.eq_of_id_eq hk hj hid.symm
      · exact huniq k hk (begins_self k)
  · have hno : ∀ k ∈ r.jobs, k.id ≠ start := fun k hk he ↦ hid ⟨k, hk, he⟩
    rw [h.find?_of_no_id hne hno]
    constructor
    · rintro ⟨hj, hb⟩
      exact ⟨hne, hj, .inr hb⟩
    · rintro ⟨-, hj, hid | hb⟩
      · exact absurd hid (hno j hj)
      · exact ⟨hj, hb⟩

theorem begins_of_find? (h : r.Keyed) (hj : r.find? start = some j) : Begins start j := by
  obtain ⟨-, -, rfl | ⟨hb, -⟩⟩ := h.find?_eq_some_iff.1 hj
  · exact begins_self j
  · exact hb

/-- Going on with the id of the job found finds it again. -/
theorem find?_longer (h : r.Keyed) (hj : r.find? start = some j) {longer : String}
    (hl : start.toList <+: longer.toList) (hb : Begins longer j) : r.find? longer = some j := by
  obtain ⟨hne, hm, hj⟩ := h.find?_eq_some_iff.1 hj
  have hne' : longer ≠ "" := by
    rintro rfl
    exact hne (String.toList_eq_nil_iff.1 (List.prefix_nil.1 hl))
  refine h.find?_eq_some_iff.2 ⟨hne', hm, ?_⟩
  rcases hj with rfl | ⟨-, huniq⟩
  · exact .inl (String.toList_injective (hl.eq_of_length_le hb.length_le))
  · exact .inr ⟨hb, fun k hk hbk ↦ huniq k hk (hl.trans hbk)⟩

end Keyed

/-- An empty text finds no job. The id of a job finds it, even if other ids begin with it. Any other
text finds the only job whose id begins with it, if there is exactly one, and otherwise none. So the
order of the entries does not matter, the id of what is found begins with the text, and so it is
found by any longer beginning of its id. -/
theorem find?_unambiguous (h : r.Keyed) (start : String) :
    (∀ r' : Registry, r'.entries.Perm r.entries → r'.find? start = r.find? start) ∧
    r.find? "" = none ∧
    (start ≠ "" → ∀ j ∈ r.jobs, j.id = start → r.find? start = some j) ∧
    (start ≠ "" → (∀ j ∈ r.jobs, j.id ≠ start) → ∀ j, r.find? start = some j ↔
      j ∈ r.jobs ∧ Begins start j ∧ ∀ k ∈ r.jobs, Begins start k → k = j) ∧
    ∀ j, r.find? start = some j → Begins start j ∧ ∀ longer : String,
      start.toList <+: longer.toList → Begins longer j → r.find? longer = some j := by
  refine ⟨fun r' hp ↦ ?_, rfl, ?_, fun hne hno j ↦ h.find?_of_no_id hne hno,
    fun j hj ↦ ⟨h.begins_of_find? hj, fun longer ↦ h.find?_longer hj⟩⟩
  · have hm (k : Job) : k ∈ r'.jobs ↔ k ∈ r.jobs := (hp.map _).mem_iff
    refine Option.ext fun j ↦ ?_
    simp only [(h.perm hp).find?_eq_some_iff, h.find?_eq_some_iff, hm]
  · rintro hne j hj rfl
    exact h.find?_of_id hj hne

def sampleNames : Registry :=
  ((({} : Registry).insert (Dispatcher.sampleJob "ab")).insert
    (Dispatcher.sampleJob "abc-1")).insert (Dispatcher.sampleJob "abd-2")

theorem keyed_sampleNames : sampleNames.Keyed :=
  ((keyed_default.insert _).insert _).insert _

theorem find?_unambiguous_sample : sampleNames.Keyed ∧
    sampleNames.find? "ab" = some (Dispatcher.sampleJob "ab") ∧
    sampleNames.find? "abc" = some (Dispatcher.sampleJob "abc-1") ∧
    sampleNames.find? "abc-" = some (Dispatcher.sampleJob "abc-1") ∧
    (⟨sampleNames.entries.reverse⟩ : Registry).find? "abc" =
      some (Dispatcher.sampleJob "abc-1") := by
  obtain ⟨-, -, hid, -, -⟩ := find?_unambiguous keyed_sampleNames "ab"
  obtain ⟨horder, -, -, hone, hlonger⟩ := find?_unambiguous keyed_sampleNames "abc"
  have habc : sampleNames.find? "abc" = some (Dispatcher.sampleJob "abc-1") :=
    (hone (by decide) (by decide) _).2 (by decide)
  exact ⟨keyed_sampleNames, hid (by decide) _ (by decide) rfl, habc,
    (hlonger _ habc).2 "abc-" (by decide) (by decide),
    (horder _ (List.reverse_perm _)).trans habc⟩

end JobEngine.Registry
