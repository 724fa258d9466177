import JobEngine.Proofs.Dispatcher.Coherence
import JobEngine.Proofs.Time.Calendar

namespace JobEngine.Dispatcher

open DependencyGraph

variable {τ : Type} {d d' : Dispatcher τ} {now cutoff : Instant} {age : ℤ} {j : Job} {id : String}

def Expired (cutoff : Instant) (j : Job) : Prop := j.finished = true ∧ j.start < cutoff

instance (cutoff : Instant) : DecidablePred (Expired cutoff) :=
  fun _ ↦ inferInstanceAs (Decidable (_ ∧ _))

theorem expired_eq (d : Dispatcher τ) (cutoff : Instant) :
    d.expired cutoff = d.registry.jobs.filter (Expired cutoff ·) :=
  List.filter_congr fun j _ ↦ by
    rw [Bool.eq_iff_iff, decide_eq_true_iff, Bool.and_eq_true, decide_eq_true_iff, Expired]

theorem pruneBefore_of_le (h : ∀ j ∈ d.registry.jobs, cutoff ≤ j.start) :
    d.pruneBefore cutoff = (0, d) := by
  have he : d.expired cutoff = [] := by
    rw [expired_eq, List.filter_eq_nil_iff]
    intro j hj he
    exact absurd (of_decide_eq_true he).2 (Int.not_lt.2 (h j hj))
  rw [pruneBefore, he]
  rfl

theorem forgetAll_eq (d : Dispatcher τ) (jobs : List Job) :
    jobs.foldl (fun d j ↦ d.forget j.id) d = { d with
      registry := ⟨d.registry.entries.filter (·.1 ∉ jobs.map (·.id))⟩
      deps := ⟨d.deps.entries.filter (·.1 ∉ jobs.map (·.id))⟩ } := by
  induction jobs generalizing d with
  | nil => simp
  | cons j jobs ih =>
    rw [List.foldl_cons, ih]
    simp only [forget, Registry.erase, DependencyGraph.remove, DependencyGraph.without,
      List.filter_filter, List.map_cons, List.mem_cons, not_or, Bool.decide_and, Bool.and_comm]

theorem mem_expired_ids (h : d.registry.Keyed) : id ∈ (d.expired cutoff).map (·.id) ↔
    ∃ j, d.registry.get? id = some j ∧ Expired cutoff j := by
  rw [expired_eq, List.mem_map]
  constructor
  · rintro ⟨j, hj, rfl⟩
    obtain ⟨hj, he⟩ := List.mem_filter.1 hj
    exact ⟨j, h.get?_of_mem_jobs hj, by simpa using he⟩
  · rintro ⟨j, hj, he⟩
    obtain rfl := h.id_of_get? hj
    exact ⟨j, List.mem_filter.2 ⟨h.mem_jobs_iff.2 hj, by simpa using he⟩, rfl⟩

theorem pruneBefore_eq (h : d.registry.Keyed) (cutoff : Instant) : d.pruneBefore cutoff =
    (d.registry.jobs.countP (Expired cutoff ·), { d with
      registry := ⟨d.registry.entries.filter (¬ Expired cutoff ·.2)⟩
      deps := ⟨d.deps.entries.filter (·.1 ∉ (d.expired cutoff).map (·.id))⟩ }) := by
  have hentries : d.registry.entries.filter (·.1 ∉ (d.expired cutoff).map (·.id)) =
      d.registry.entries.filter (¬ Expired cutoff ·.2) := by
    refine List.filter_congr fun x hx ↦ ?_
    have hg : d.registry.get? x.1 = some x.2 := h.get?_eq_some_iff.2 hx
    rw [Bool.eq_iff_iff, decide_eq_true_iff, decide_eq_true_iff, mem_expired_ids h, hg]
    simp
  rw [pruneBefore, forgetAll_eq, hentries, expired_eq, List.countP_eq_length_filter]

section Pruned

variable (h : d.registry.Keyed) (cutoff : Instant)

include h

theorem jobs_pruneBefore : (d.pruneBefore cutoff).2.registry.jobs =
    d.registry.jobs.filter (¬ Expired cutoff ·) := by
  rw [pruneBefore_eq h, Registry.jobs, Registry.jobs, List.filter_map]
  rfl

theorem size_pruneBefore : (d.pruneBefore cutoff).2.registry.size + (d.pruneBefore cutoff).1 =
    d.registry.size := by
  have hsize (r : Registry) : r.size = r.jobs.length := by
    rw [Registry.size, Registry.jobs, List.length_map]
  rw [hsize, hsize, jobs_pruneBefore h, pruneBefore_eq h, ← List.countP_eq_length_filter,
    List.length_eq_countP_add_countP (Expired cutoff ·) (l := d.registry.jobs), Nat.add_comm]
  simp only [decide_not, decide_eq_true_eq]

theorem get?_pruneBefore : (d.pruneBefore cutoff).2.registry.get? id = some j ↔
    d.registry.get? id = some j ∧ ¬ Expired cutoff j := by
  have hk : (⟨d.registry.entries.filter (¬ Expired cutoff ·.2)⟩ : Registry).Keyed :=
    ⟨h.nodup.sublist (List.filter_sublist.map _), fun x hx ↦ h.id_eq x (List.mem_of_mem_filter hx)⟩
  rw [pruneBefore_eq h, hk.get?_eq_some_iff, h.get?_eq_some_iff, List.mem_filter,
    decide_eq_true_iff]

theorem lookup_pruneBefore (job : String) : (d.pruneBefore cutoff).2.deps.entries.lookup job =
    if job ∈ (d.expired cutoff).map (·.id) then none else d.deps.entries.lookup job := by
  rw [pruneBefore_eq h, Lookup.lookup_filter (· ∉ (d.expired cutoff).map (·.id)), ite_not]

theorem edges_of_expired {job : String} (hj : d.registry.get? job = some j)
    (he : Expired cutoff j) : (d.pruneBefore cutoff).2.deps.edges job = .error .missing := by
  rw [edges, lookup_pruneBefore h, if_pos ((mem_expired_ids h).2 ⟨j, hj, he⟩)]

theorem edges_of_kept {job : String} (hj : ∀ j, d.registry.get? job = some j → ¬ Expired cutoff j) :
    (d.pruneBefore cutoff).2.deps.edges job = d.deps.edges job := by
  rw [edges, lookup_pruneBefore h, if_neg]
  · rfl
  · rw [mem_expired_ids h]
    rintro ⟨j, hr, he⟩
    exact hj j hr he

theorem pruneBefore_pruneBefore :
    (d.pruneBefore cutoff).2.pruneBefore cutoff = (0, (d.pruneBefore cutoff).2) := by
  have he : (d.pruneBefore cutoff).2.expired cutoff = [] := by
    rw [expired_eq, jobs_pruneBefore h, List.filter_filter]
    simp
  rw [pruneBefore, he]
  rfl

end Pruned

theorem not_expired (hu : d.Unfinished id) (j : Job) (hj : d.registry.get? id = some j) :
    ¬ Expired cutoff j :=
  fun he ↦ not_unfinished hj he.1 hu

theorem nanos_of_cutoff? (h : cutoff? now age = some cutoff)
    (ha : now.nano < nanosPerSecond ∨ 0 ≤ age) : cutoff.nanos + age = now.nanos := by
  obtain ⟨-, hs⟩ := Option.ite_none_right_eq_some.1 h
  rw [Instant.nanos_of_shift? (ha.imp_right neg_nonpos.2) hs]
  omega

/-- Pruning removes exactly the jobs that have finished and started before the cutoff, and tells how
many they are. Their own entries in the graph go with them and nothing else changes: the jobs in
line are judged as before, and pruning again at the same time removes nothing. -/
theorem prune_removes_expired {past : List (Step τ)} (h : Run Proper past d)
    (hc : cutoff? now age = some cutoff) :
    (now.nano < nanosPerSecond ∨ 0 ≤ age → cutoff.nanos + age = now.nanos) ∧
    ∃ n d', d.pruneOlder now age = some (n, d') ∧
      (∀ id j, d'.registry.get? id = some j ↔
        d.registry.get? id = some j ∧ ¬ (j.finished = true ∧ j.start < cutoff)) ∧
      d'.registry.size + n = d.registry.size ∧
      (∀ id, d.Unfinished id → d'.registry.get? id = d.registry.get? id) ∧
      (∀ job j, d.registry.get? job = some j → j.finished = true ∧ j.start < cutoff →
        d'.deps.edges job = .error .missing) ∧
      (∀ job, (∀ j, d.registry.get? job = some j → ¬ (j.finished = true ∧ j.start < cutoff)) →
        d'.deps.edges job = d.deps.edges job) ∧
      d' = { d with registry := d'.registry, deps := d'.deps } ∧
      (∀ p ∈ d.queue.toList, d'.readiness p.job.id = d.readiness p.job.id) ∧
      d'.pruneOlder now age = some (0, d') := by
  have hk := h.wellFormed.registry
  have hprune (e : Dispatcher τ) : e.pruneOlder now age = some (e.pruneBefore cutoff) := by
    rw [pruneOlder, hc, Option.map_some]
  refine ⟨nanos_of_cutoff? hc, (d.pruneBefore cutoff).1, (d.pruneBefore cutoff).2, hprune d,
    fun id j ↦ get?_pruneBefore hk cutoff, size_pruneBefore hk cutoff, fun id hu ↦ ?_,
    fun job j hj he ↦ edges_of_expired hk cutoff hj he, fun job hj ↦ edges_of_kept hk cutoff hj, ?_,
    fun p hp ↦ ?_, ?_⟩
  · obtain ⟨j, hj, hf⟩ := hu
    rw [hj, get?_pruneBefore hk]
    exact ⟨hj, not_expired ⟨j, hj, hf⟩ j hj⟩
  · rw [pruneBefore_eq hk]
  · have hu : d.Unfinished p.job.id :=
      (h.accounted.unfinished_iff _).2 (by simp [active, queued, List.mem_map_of_mem hp])
    have he := edges_of_kept hk cutoff (not_expired hu)
    rw [readiness, readiness, hasFailedParent, hasFailedParent, mustWait, mustWait, he]
  · rw [hprune, pruneBefore_pruneBefore hk]

def sampleTime (second : ℕ) (h : second < 86400) : Instant :=
  { sampleInstant with second, second_lt := h, leap := fun hl ↦ absurd hl (by decide) }

theorem prune_removes_expired_sample :
    cutoff? (sampleTime 46800 (by decide)) 1800000000000 =
        some (sampleTime 45000 (by decide)) ∧
      ∃ n d', sample.2.pruneOlder (sampleTime 46800 (by decide)) 1800000000000 = some (n, d') ∧
        d'.registry.get? "first" = none ∧
        d'.registry.get? "second" = sample.2.registry.get? "second" ∧
        d'.deps.edges "second" = sample.2.deps.edges "second" := by
  have hc : cutoff? (sampleTime 46800 (by decide)) 1800000000000 =
      some (sampleTime 45000 (by decide)) := by
    decide +kernel
  have hfirst : sample.2.registry.get? "first" =
      some ((sampleJob "first").finish sampleInstant) := by
    decide +kernel
  have hsecond : sample.2.registry.get? "second" = some (sampleJob "second") := by decide +kernel
  obtain ⟨-, n, d', hd, hr, -, hu, -, he, -⟩ := prune_removes_expired sample_run hc
  refine ⟨hc, n, d', hd, Option.eq_none_iff_forall_ne_some.2 fun j hj ↦ ?_, hu _ ⟨_, hsecond, rfl⟩,
    he _ fun j hj hj' ↦ ?_⟩
  · obtain ⟨hj, hkept⟩ := (hr "first" j).1 hj
    rw [hfirst, Option.some.injEq] at hj
    subst hj
    exact hkept (by decide +kernel)
  · rw [hsecond, Option.some.injEq] at hj
    subst hj
    cases hj'.1

/-- The caps on hours and ages never matter: what they cut off lies beyond the calendar. -/
theorem cutoff?_retention (now : Instant) (hours : UInt64) :
    cutoff? now (retentionSeconds hours * nanosPerSecond) =
      now.shift? (-((hours.toNat * 3600 : ℕ) * nanosPerSecond)) := by
  by_cases hle : hours.toNat * 3600 * nanosPerSecond ≤ maxAge
  · have hword : hours.toNat ≤ greatestWord := by
      rw [maxAge, nanosPerSecond] at hle
      rw [greatestWord]
      omega
    have hage : (retentionSeconds hours * nanosPerSecond).natAbs ≤ maxAge := by
      rw [retentionSeconds, if_pos hword]
      rw [nanosPerSecond] at *
      omega
    rw [cutoff?, if_pos hage, retentionSeconds, if_pos hword, Nat.cast_mul, Nat.cast_ofNat]
  · have hcap : ¬ (retentionSeconds hours * nanosPerSecond).natAbs ≤ maxAge := by
      rw [retentionSeconds, maxAge, greatestWord, nanosPerSecond] at *
      split <;> omega
    have hfar :
        (now.shift? (-((hours.toNat * 3600 : ℕ) * nanosPerSecond))).isSome ≠ true := by
      have hdate := now.date.number_bounds.2
      have hs := now.second_lt
      have hn := now.nano_lt
      rw [ne_eq, Instant.isSome_shift?_back (by omega), Instant.nanos_first, Instant.nanos,
        Date.number_first, not_le]
      rw [Date.number_last] at hdate
      rw [maxAge] at hle
      rw [nanosPerSecond] at *
      omega
    rw [cutoff?, if_neg hcap, Option.not_isSome_iff_eq_none.1 hfar]

/-- Pruning with a retention in hours fails exactly if the calendar does not reach back that far.
Otherwise it prunes what started before the moment that lies so many hours back, and removes nothing
if no job started before that. -/
theorem runPrune_answers (d : Dispatcher τ) (now : Instant) (hours : UInt64) :
    (hours = 0 → d.runPrune now hours = some (0, d)) ∧
    (hours ≠ 0 → Instant.first.nanos + (hours.toNat * 3600 : ℕ) * nanosPerSecond ≤ now.nanos →
      ∃ cutoff, cutoff.nanos + (hours.toNat * 3600 : ℕ) * nanosPerSecond = now.nanos ∧
        cutoff.nano < nanosPerSecond ∧ d.runPrune now hours = some (d.pruneBefore cutoff) ∧
        ((∀ j ∈ d.registry.jobs, cutoff ≤ j.start) → d.runPrune now hours = some (0, d))) ∧
    (hours ≠ 0 → now.nanos < Instant.first.nanos + (hours.toNat * 3600 : ℕ) * nanosPerSecond →
      d.runPrune now hours = none) := by
  have hrun (h : hours ≠ 0) : d.runPrune now hours =
      (now.shift? (-((hours.toNat * 3600 : ℕ) * nanosPerSecond))).map d.pruneBefore := by
    rw [runPrune, if_neg h, prune, pruneOlder, cutoff?_retention]
  have hspan : (0 : ℤ) ≤ (hours.toNat * 3600 : ℕ) * nanosPerSecond :=
    mul_nonneg (Int.natCast_nonneg _) (Int.natCast_nonneg _)
  have hback : (now.shift? (-((hours.toNat * 3600 : ℕ) * nanosPerSecond))).isSome = true ↔
      Instant.first.nanos + (hours.toNat * 3600 : ℕ) * nanosPerSecond ≤ now.nanos := by
    rw [Instant.isSome_shift?_back (neg_nonpos.2 hspan)]
    omega
  refine ⟨fun h ↦ if_pos h, fun h hle ↦ ?_, fun h hlt ↦ ?_⟩
  · obtain ⟨cutoff, hc⟩ := Option.isSome_iff_exists.1 (hback.2 hle)
    have hnanos := Instant.nanos_of_shift? (.inr (neg_nonpos.2 hspan)) hc
    have hpos : 0 < hours.toNat := Nat.pos_of_ne_zero fun h₀ ↦ h (UInt64.toNat_inj.1 h₀)
    have hnano : cutoff.nano < nanosPerSecond :=
      Instant.nano_of_shift? (.inr (by rw [nanosPerSecond]; omega)) hc
    refine ⟨cutoff, by omega, hnano, by rw [hrun h, hc, Option.map_some], fun hstart ↦ ?_⟩
    rw [hrun h, hc, Option.map_some, pruneBefore_of_le hstart]
  · have hnone := mt hback.1 (not_le.2 hlt)
    rw [hrun h, Option.not_isSome_iff_eq_none.1 hnone, Option.map_none]

/-- A retention that is meant to keep everything. -/
theorem runPrune_stops : sample.2.runPrune sampleInstant 18446744073709551615 = none := by
  have hc : cutoff? sampleInstant (retentionSeconds 18446744073709551615 * nanosPerSecond) =
      none := by
    decide +kernel
  rw [runPrune, if_neg (by decide), prune, pruneOlder, hc]
  rfl

end JobEngine.Dispatcher
