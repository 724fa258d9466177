import JobEngine.Proofs.Dispatcher.Coherence

namespace JobEngine.Dispatcher

open DependencyGraph

variable {τ : Type} {d d' m : Dispatcher τ} {gone : String → Option Job} {now : Instant} {b : Bool}
  {id : String} {l : Launch τ}

/-- A pass over the queue of `d` launches `l` when it is in state `m`. -/
def LaunchesAt (d : Dispatcher τ) (now : Instant) (m : Dispatcher τ) (l : Launch τ) : Prop :=
  ∃ n < d.queue.size, (lookAll now n d false).1 = m ∧
    ∃ m' b, m.look now = some (m', b) ∧ m'.launches = m.launches ++ [l]

theorem lookAll_add (now : Instant) (n k : Nat) (d : Dispatcher τ) (settled : Bool) :
    lookAll now (n + k) d settled =
      lookAll now k (lookAll now n d settled).1 (lookAll now n d settled).2 := by
  induction n generalizing d settled with
  | zero => rw [Nat.zero_add, lookAll]
  | succ n ih =>
    rw [Nat.add_right_comm, lookAll, lookAll]
    cases hl : d.look now with
    | none => cases k <;> simp [lookAll, hl]
    | some x => exact ih x.1 _

theorem lookAll_succ (now : Instant) (n : Nat) (d : Dispatcher τ) (settled : Bool) :
    (lookAll now (n + 1) d settled).1 =
      (((lookAll now n d settled).1.look now).map (·.1)).getD (lookAll now n d settled).1 := by
  rw [lookAll_add]
  simp only [lookAll]
  cases (lookAll now n d settled).1.look now <;> rfl

theorem readiness_eq_ready_iff :
    d.readiness id = .ready ↔
      ∀ e ∈ d.deps.edgesOf id, e.finished = true ∧ e.hasError = false := by
  rw [readiness_eq]
  constructor
  · intro h e he
    split at h
    · cases h
    · next hf =>
      split at h
      · cases h
      · next hw =>
        simp only [List.any_eq_true, not_exists, not_and] at hf hw
        exact ⟨by simpa using hw e he, by simpa using hf e he⟩
  · intro h
    rw [if_neg, if_neg]
    · simpa using fun e he ↦ (h e he).1
    · simpa using fun e he ↦ (h e he).2

theorem look_launches (h : d.Sound gone) (hl : d.look now = some (d', b)) :
    d'.launches = d.launches ∨
      ∃ l, d'.launches = d.launches ++ [l] ∧ d.readiness l.attempt.id = .ready := by
  obtain ⟨p, queue, n, -, -, -, hl⟩ := h.accounted.looked_of_look h.wellFormed hl
  cases hl with
  | cancelled => exact .inl rfl
  | launched hr => exact .inr ⟨⟨⟨p.ticket, p.job.id, n, p.job.touch now⟩, p.task⟩, rfl, hr⟩
  | postponed => exact .inl rfl
  | skipped => exact .inl rfl

theorem exists_launchesAt (h : d.Sound gone) (now : Instant) {n : Nat} (hn : n ≤ d.queue.size) :
    ∃ ls, (lookAll now n d false).1.launches = d.launches ++ ls ∧
      ∀ l ∈ ls, ∃ m, LaunchesAt d now m l := by
  induction n with
  | zero => exact ⟨[], (List.append_nil _).symm, by simp⟩
  | succ n ih =>
    obtain ⟨ls, hls, hm⟩ := ih (Nat.le_of_succ_le hn)
    rw [lookAll_succ]
    cases hl : (lookAll now n d false).1.look now with
    | none => exact ⟨ls, hls, hm⟩
    | some x =>
      obtain ⟨m', b⟩ := x
      rcases look_launches (h.lookAll now n false) hl with he | ⟨l, he, -⟩
      · exact ⟨ls, he.trans hls, hm⟩
      · refine ⟨ls ++ [l], ?_, fun l' hl' ↦ ?_⟩
        · change m'.launches = _
          rw [he, hls, List.append_assoc]
        · rcases List.mem_append.1 hl' with hl' | hl'
          · exact hm l' hl'
          · obtain rfl := List.mem_singleton.1 hl'
            exact ⟨_, n, hn, rfl, m', b, hl, he⟩

theorem LaunchesAt.sound (h : d.Sound gone) (hl : LaunchesAt d now m l) :
    m.Sound gone ∧ m.readiness l.attempt.id = .ready := by
  obtain ⟨n, -, rfl, m', b, hl, he⟩ := hl
  have hm := h.lookAll now n false
  refine ⟨hm, ?_⟩
  rcases look_launches hm hl with he' | ⟨l', he', hr⟩
  · rw [he', List.self_eq_append_right] at he
    cases he
  · rw [he', List.append_cancel_left_eq, List.cons.injEq] at he
    exact he.1 ▸ hr

/-- Whenever a pass launches a job, the most recent record of every parent of the job is that of a
success. A parent that is not registered any more had that record when it left the registry. -/
theorem launched_after_parents {past : List (Step τ)} (h : Run Proper past d) (now : Instant) :
    (∃ ls, (d.dispatchReady now).launches = d.launches ++ ls ∧
      ∀ l ∈ ls, ∃ m, LaunchesAt d now m l) ∧
    ∀ m l, LaunchesAt d now m l → ∀ es, m.deps.edges l.attempt.id = .ok es → ∀ e ∈ es,
      (∃ p, m.registry.get? e.parent = some p ∧ p.finished = true ∧ p.error = none) ∨
        m.registry.get? e.parent = none ∧
          ∃ p, lastRecord past e.parent = some p ∧ p.finished = true ∧ p.error = none := by
  have hs := h.sound
  refine ⟨?_, fun m l hl es hes e he ↦ ?_⟩
  · obtain ⟨ls, hls, hm⟩ := exists_launchesAt hs now le_rfl
    refine ⟨ls, ?_, hm⟩
    rcases dispatchReady_cases d now with he | he
    · rw [he, hls]
    · rw [he]
      exact hls
  · obtain ⟨hm, hr⟩ := hl.sound hs
    have he : e ∈ m.deps.edgesOf l.attempt.id := by rwa [edgesOf_of_edges hes]
    obtain ⟨hf, herr⟩ := readiness_eq_ready_iff.1 hr e he
    obtain ⟨p, hp, hmir⟩ := hm.coherent.mirror _ e he
    have hpf : p.finished = true := hmir.1.symm.trans hf
    have hpe : p.error = none := by
      have hfail := hmir.2.symm.trans herr
      simpa [Job.failed, hpf] using hfail
    cases hreg : m.registry.get? e.parent with
    | some q =>
      rw [hreg, Option.some_or] at hp
      exact .inl ⟨p, hp, hpf, hpe⟩
    | none =>
      rw [hreg, Option.none_or] at hp
      exact .inr ⟨rfl, p, hp, hpf, hpe⟩

theorem launched_after_parents_sample :
    (sample.2.dispatchReady sampleInstant).launches.map (·.attempt.id) = ["first", "second"] ∧
    ∃ ls, (sample.2.dispatchReady sampleInstant).launches = sample.2.launches ++ ls ∧
      ∀ l ∈ ls, ∃ m, LaunchesAt sample.2 sampleInstant m l :=
  ⟨by decide +kernel, (launched_after_parents sample_run sampleInstant).1⟩

end JobEngine.Dispatcher
