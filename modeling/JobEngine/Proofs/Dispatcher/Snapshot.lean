import JobEngine.Proofs.Dispatcher.WellFormed

namespace JobEngine.Dispatcher

variable {τ : Type} {d : Dispatcher τ} {j : Job} {jobs : List Job} {id : String}

/-- What a dispatcher knows of a job. The registry knows best. -/
def known? (d : Dispatcher τ) (id : String) : Option Job :=
  (d.registry.get? id).or (d.detached.get? id)

theorem isSome_known?_iff : (d.known? id).isSome = true ↔ d.Knows id := by
  rw [known?, Option.isSome_or, Bool.or_eq_true]
  rfl

theorem known?_eq_some_iff : d.known? id = some j ↔
    d.registry.get? id = some j ∨ d.registry.get? id = none ∧ d.detached.get? id = some j :=
  Option.or_eq_some_iff

namespace WellFormed

theorem id_of_known? (h : d.WellFormed) (hj : d.known? id = some j) : j.id = id := by
  rcases known?_eq_some_iff.1 hj with hj | ⟨-, hj⟩
  · exact h.registry.id_of_get? hj
  · exact h.detached.id_of_get? hj

theorem mem_snapshot (h : d.WellFormed) : j ∈ d.snapshot ↔ d.known? j.id = some j := by
  rw [snapshot, List.mem_append, Registry.mem_listed, h.registry.mem_jobs_iff, List.mem_filter,
    Registry.mem_listed, h.detached.mem_jobs_iff, known?_eq_some_iff]
  simp [Registry.contains, and_comm]

theorem nodup_snapshot (h : d.WellFormed) : (d.snapshot.map (·.id)).Nodup := by
  rw [snapshot, List.map_append, List.nodup_append]
  refine ⟨Registry.nodup_listed_ids h.registry,
    (Registry.nodup_listed_ids h.detached).sublist (List.filter_sublist.map _), ?_⟩
  rintro id hr _ hd rfl
  obtain ⟨j, hj, rfl⟩ := List.mem_map.1 hr
  obtain ⟨k, hk, he⟩ := List.mem_map.1 hd
  have hk : d.registry.get? k.id = none := by
    simpa [Registry.contains] using (List.mem_filter.1 hk).2
  rw [Registry.mem_listed, h.registry.mem_jobs_iff, ← he, hk] at hj
  cases hj

theorem mem_snapshot_ids (h : d.WellFormed) : id ∈ d.snapshot.map (·.id) ↔ d.Knows id := by
  rw [← isSome_known?_iff, List.mem_map]
  constructor
  · rintro ⟨j, hj, rfl⟩
    rw [h.mem_snapshot.1 hj]
    rfl
  · intro hk
    obtain ⟨j, hj⟩ := Option.isSome_iff_exists.1 hk
    obtain rfl := h.id_of_known? hj
    exact ⟨j, h.mem_snapshot.2 hj, rfl⟩

/-- Of jobs that stem from a snapshot, each known id has one, and no other id has any. -/
theorem count_ids (h : d.WellFormed) {f : Job → Job} (hf : ∀ j ∈ d.snapshot, (f j).id = j.id)
    (id : String) :
    ((d.snapshot.map f).map (·.id)).count id = if d.Knows id then 1 else 0 := by
  have he : (d.snapshot.map f).map (·.id) = d.snapshot.map (·.id) := by
    rw [List.map_map]
    exact List.map_congr_left hf
  rw [he, h.nodup_snapshot.count]
  simp only [h.mem_snapshot_ids]

end WellFormed

theorem takeUp_cons (d : Dispatcher τ) (j : Job) (jobs : List Job) :
    d.takeUp (j :: jobs) = takeUp (if j.finished then { d with registry := d.registry.insert j }
      else { d with detached := d.detached.insert j }) jobs := rfl

theorem takeUp_eq (jobs : List Job) (d : Dispatcher τ) :
    ∃ registry detached, d.takeUp jobs = { d with registry, detached } := by
  apply takeUp_induction (motive := fun e ↦ ∃ registry detached, e = { d with registry, detached })
  · rintro e j ⟨registry, detached, rfl⟩
    exact ⟨registry.insert j, detached, rfl⟩
  · rintro e j ⟨registry, detached, rfl⟩
    exact ⟨registry, detached.insert j, rfl⟩
  · exact ⟨d.registry, d.detached, rfl⟩

theorem unfinished_takeUp (hd : ∀ j, d.detached.get? id = some j → j.finished = false)
    (jobs : List Job) (hj : (d.takeUp jobs).detached.get? id = some j) : j.finished = false := by
  induction jobs generalizing d with
  | nil => exact hd j hj
  | cons k jobs ih =>
    rw [takeUp_cons] at hj
    apply ih _ hj
    cases hk : k.finished with
    | true => exact hd
    | false =>
      intro i hi
      have hi : (d.detached.insert k).get? id = some i := hi
      rw [Registry.get?_insert] at hi
      split at hi
      · cases hi
        exact hk
      · exact hd i hi

theorem get?_takeUp_of_not_mem (hi : id ∉ jobs.map (·.id)) :
    (d.takeUp jobs).registry.get? id = d.registry.get? id ∧
      (d.takeUp jobs).detached.get? id = d.detached.get? id := by
  induction jobs generalizing d with
  | nil => exact ⟨rfl, rfl⟩
  | cons j jobs ih =>
    rw [List.map_cons, List.mem_cons, not_or] at hi
    obtain ⟨hr, hd⟩ := ih (d := if j.finished then { d with registry := d.registry.insert j }
      else { d with detached := d.detached.insert j }) hi.2
    rw [takeUp_cons, hr, hd]
    split
    · exact ⟨Registry.get?_insert_of_ne hi.1, rfl⟩
    · exact ⟨rfl, Registry.get?_insert_of_ne hi.1⟩

theorem get?_takeUp (hn : (jobs.map (·.id)).Nodup) (hj : j ∈ jobs) :
    (d.takeUp jobs).registry.get? j.id = (if j.finished then some j else d.registry.get? j.id) ∧
      (d.takeUp jobs).detached.get? j.id =
        if j.finished then d.detached.get? j.id else some j := by
  induction jobs generalizing d with
  | nil => cases hj
  | cons k jobs ih =>
    rw [List.map_cons, List.nodup_cons] at hn
    rw [takeUp_cons]
    rcases List.mem_cons.1 hj with rfl | hj
    · obtain ⟨hr, hd⟩ := get?_takeUp_of_not_mem (d := if j.finished then
        { d with registry := d.registry.insert j }
        else { d with detached := d.detached.insert j }) hn.1
      rw [hr, hd]
      cases j.finished with
      | true => exact ⟨Registry.get?_insert_self _ _, rfl⟩
      | false => exact ⟨rfl, Registry.get?_insert_self _ _⟩
    · have hne : j.id ≠ k.id := by
        intro he
        exact hn.1 (he ▸ List.mem_map_of_mem hj)
      obtain ⟨hr, hd⟩ := ih (d := if k.finished then { d with registry := d.registry.insert k }
        else { d with detached := d.detached.insert k }) hn.2 hj
      rw [hr, hd]
      cases k.finished with
      | true => simp [Registry.get?_insert_of_ne hne]
      | false => simp [Registry.get?_insert_of_ne hne]

end JobEngine.Dispatcher
