import JobEngine.Logging.Retention
import JobEngine.Proofs.Time.Calendar
import JobEngine.Proofs.Time.Reading

namespace JobEngine

open Text

theorem FileName.text?_eq_some_iff {n : FileName} {s : String} :
    n.text? = some s ↔ n = ofText s := by
  constructor
  · intro h
    obtain ⟨_, hs⟩ := Option.dite_none_right_eq_some.1 h
    cases hs
    rfl
  · rintro rfl
    exact dif_pos s.isValidUTF8

namespace LogFile

variable {now : Instant} {days : ℕ} {cutoff d : Date} {f : LogFile} {n : FileName}
  {deletable : LogFile → Bool} {files : List LogFile}

/-- A file is named for a day if its name is that of the log, a dot and a date of that day. -/
def NamedFor (n : FileName) (d : Date) : Prop :=
  ∃ written : String, n = .ofText (stem ++ "." ++ written) ∧ Date.read? written.toList = some d

theorem namedFor_iff : NamedFor n d ↔ day? n = some d := by
  constructor
  · rintro ⟨written, rfl, hd⟩
    have ht : (stem ++ "." ++ written).toList = stem.toList ++ ['.'] ++ written.toList := by
      simp [String.toList_append]
    simp only [day?, FileName.text?_eq_some_iff.2 rfl, Option.bind_eq_bind, Option.bind_some, ht,
      List.isPrefixOf_iff_prefix.2 (List.prefix_append _ _), if_true, List.drop_left, hd]
  · intro h
    obtain ⟨s, hs, h⟩ := Option.bind_eq_some_iff.1 h
    obtain ⟨hp, hd⟩ := Option.ite_none_right_eq_some.1 h
    obtain ⟨rest, hr⟩ := List.isPrefixOf_iff_prefix.1 hp
    refine ⟨String.ofList rest, ?_, ?_⟩
    · rw [FileName.text?_eq_some_iff.1 hs]
      refine congrArg _ (String.toList_injective ?_)
      simp [String.toList_append, ← hr]
    · rw [String.toList_ofList, ← hd, ← hr, List.drop_left]

theorem NamedFor.unique {e : Date} (h : NamedFor n d) (h' : NamedFor n e) : d = e := by
  rw [namedFor_iff] at h h'
  exact Option.some.inj (h.symm.trans h')

def rolledName (d : Date) : FileName :=
  .ofText (stem ++ "." ++ String.ofList (Instant.yearText d.year ++ '-' :: (padded 2 d.month ++
    '-' :: padded 2 d.day)))

theorem namedFor_rolledName (d : Date) : NamedFor (rolledName d) d := by
  refine ⟨_, rfl, ?_⟩
  have hs := d.scan_text false []
  rw [List.append_nil] at hs
  rw [String.toList_ofList, Date.read?, hs]

/-- A file is expired if it is a regular one and named for an earlier day than `cutoff`. -/
def Expired (cutoff : Date) (f : LogFile) : Prop :=
  f.regular = true ∧ ∃ d, NamedFor f.name d ∧ d.Before cutoff

theorem rolledBefore_iff : f.rolledBefore cutoff = true ↔ Expired cutoff f := by
  simp only [rolledBefore, Expired, namedFor_iff, Bool.and_eq_true, Option.any_eq_true,
    decide_eq_true_eq, Date.number_lt_iff]

instance (cutoff : Date) : DecidablePred (Expired cutoff) :=
  fun _ ↦ decidable_of_iff _ rolledBefore_iff

theorem not_expired (hd : NamedFor f.name d) (hle : cutoff.number ≤ d.number) :
    ¬ Expired cutoff f := by
  rintro ⟨-, e, he, hlt⟩
  rw [he.unique hd, ← Date.number_lt_iff] at hlt
  omega

theorem cleanUp_eq (deletable : LogFile → Bool) (cutoff : Date) (files : List LogFile) :
    cleanUp deletable cutoff files =
      (files.countP fun f ↦ Expired cutoff f ∧ deletable f = true,
        files.filter fun f ↦ ¬ (Expired cutoff f ∧ deletable f = true)) := by
  have hp (f : LogFile) : (f.rolledBefore cutoff && deletable f) =
      decide (Expired cutoff f ∧ deletable f = true) := by
    rw [Bool.eq_iff_iff, Bool.and_eq_true, rolledBefore_iff, decide_eq_true_iff]
  simp only [cleanUp, hp, List.partition_eq_filter_filter, List.countP_eq_length_filter]
  simp only [decide_not]
  rfl

theorem cleanUp_again (deletable deletable' : LogFile → Bool) (cutoff : Date)
    (files : List LogFile) : cleanUp deletable' cutoff (cleanUp deletable cutoff files).2 =
      (files.countP fun f ↦ Expired cutoff f ∧ deletable f = false ∧ deletable' f = true,
        (cleanUp deletable cutoff files).2.filter fun f ↦
          ¬ (Expired cutoff f ∧ deletable f = false ∧ deletable' f = true)) := by
  rw [cleanUp_eq deletable', cleanUp_eq deletable, List.countP_filter]
  refine Prod.ext (List.countP_congr fun f _ ↦ ?_) (List.filter_congr fun f hf ↦ ?_)
  · simp only [Bool.and_eq_true, decide_eq_true_eq]
    cases deletable f <;> tauto
  · have hleft := of_decide_eq_true (List.mem_filter.1 hf).2
    rw [decide_eq_decide]
    cases hd : deletable f <;> tauto

/-- There is a first day to keep exactly if the calendar goes back that far. -/
theorem isSome_cutoff? : (cutoff? now days).isSome = true ↔
    Instant.first.nanos + (days * 86400 * nanosPerSecond : ℕ) ≤ now.nanos := by
  rw [cutoff?, Option.isSome_map, Instant.isSome_shift?_back (by omega)]
  omega

/-- The first day to keep lies as many days back as the retention. A leap second that ends a day
counts as the second after it, which may be a day more. -/
theorem number_of_cutoff? (h : cutoff? now days = some cutoff) :
    (now.nano < nanosPerSecond → cutoff.number + days = now.date.number) ∧
      cutoff.number + days ≤ now.date.number + 1 := by
  obtain ⟨u, hu, rfl⟩ := Option.map_eq_some_iff.1 h
  have hs := now.second_lt
  have hnano := now.nano_lt
  have hus := u.second_lt
  by_cases hback : now.nano < nanosPerSecond ∨
      (-(days * 86400 * nanosPerSecond : ℕ) : ℤ) ≤ -nanosPerSecond
  · have hn := Instant.nanos_of_shift? (.inr (by omega)) hu
    have hun := Instant.nano_of_shift? hback hu
    simp only [Instant.nanos, Nat.cast_mul, Nat.cast_ofNat] at hn
    rw [nanosPerSecond] at *
    omega
  · -- within a leap second and without going back
    rw [not_or, not_lt, not_le] at hback
    have hdays : days = 0 := by
      rw [nanosPerSecond] at hback
      omega
    subst hdays
    rw [Instant.shift?_leap hback.1 hback.2 (by omega)] at hu
    obtain ⟨_, hu⟩ := Option.dite_none_right_eq_some.1 hu
    cases hu
    dsimp only
    rw [Nat.cast_zero, add_zero]
    exact ⟨fun _ ↦ rfl, by omega⟩

/-- A clean-up deletes exactly the regular files that are named for a day before the first one to
keep, unless they cannot be deleted, and tells how many they are. So the files of today and of as
many days before as the retention has stay. Another clean-up at the same time deletes only what the
first one could not. -/
theorem cleanUp_deletes_expired
    (h : Instant.first.nanos + (days * 86400 * nanosPerSecond : ℕ) ≤ now.nanos)
    (deletable : LogFile → Bool) (files : List LogFile) :
    ∃ cutoff, cutoff? now days = some cutoff ∧
      (now.nano < nanosPerSecond → cutoff.number + days = now.date.number) ∧
      ∃ deleted left, cleanUp deletable cutoff files = (deleted, left) ∧
        (left = files.filter fun f ↦ ¬ (Expired cutoff f ∧ deletable f = true)) ∧
        (deleted = files.countP fun f ↦ Expired cutoff f ∧ deletable f = true) ∧
        (∀ f ∈ files, ∀ d, NamedFor f.name d → now.date.number < d.number + days ∨
          now.nano < nanosPerSecond ∧ now.date.number = d.number + days → f ∈ left) ∧
        ∀ deletable' : LogFile → Bool, cleanUp deletable' cutoff left =
          (files.countP fun f ↦ Expired cutoff f ∧ deletable f = false ∧ deletable' f = true,
            left.filter fun f ↦
              ¬ (Expired cutoff f ∧ deletable f = false ∧ deletable' f = true)) := by
  obtain ⟨cutoff, hc⟩ := Option.isSome_iff_exists.1 (isSome_cutoff?.2 h)
  obtain ⟨hday, hlate⟩ := number_of_cutoff? hc
  refine ⟨cutoff, hc, hday, _, _, cleanUp_eq deletable cutoff files, rfl, rfl, ?_, ?_⟩
  · intro f hf d hd hrecent
    have hle : cutoff.number ≤ d.number := by
      rcases hrecent with hlt | ⟨hn, heq⟩
      · omega
      · have hcd := hday hn
        omega
    exact List.mem_filter.2 ⟨hf, decide_eq_true fun he ↦ not_expired hd hle he.1⟩
  · intro deletable'
    have hagain := cleanUp_again deletable deletable' cutoff files
    rwa [cleanUp_eq deletable] at hagain

def sampleDay (day : ℕ) (h : 1 ≤ day ∧ day ≤ 31) : Date :=
  ⟨2025, 5, day, by decide, by decide, h.1, h.2⟩

def sampleNow : Instant := (Instant.mk? (sampleDay 20 (by decide)) 43200 0).get (by decide)

def sampleFiles : List LogFile :=
  [⟨rolledName (sampleDay 12 (by decide)), true⟩, ⟨rolledName (sampleDay 13 (by decide)), true⟩]

theorem cleanUp_deletes_expired_sample :
    Instant.first.nanos + (7 * 86400 * nanosPerSecond : ℕ) ≤ sampleNow.nanos ∧
    ∃ cutoff deleted left, cutoff? sampleNow 7 = some cutoff ∧
      cleanUp (fun _ ↦ true) cutoff sampleFiles = (deleted, left) ∧
      ⟨rolledName (sampleDay 12 (by decide)), true⟩ ∉ left ∧
      ⟨rolledName (sampleDay 13 (by decide)), true⟩ ∈ left := by
  have hr : Instant.first.nanos + (7 * 86400 * nanosPerSecond : ℕ) ≤ sampleNow.nanos := by decide
  obtain ⟨cutoff, hc, hday, deleted, left, hclean, hleft, -, hkept, -⟩ :=
    cleanUp_deletes_expired hr (fun _ ↦ true) sampleFiles
  have hcutoff : cutoff.number = 20221 := by
    have hnow : sampleNow.date.number = 20228 := by decide
    have hd := hday (by decide)
    omega
  refine ⟨hr, cutoff, deleted, left, hc, hclean, ?_, ?_⟩
  · rw [hleft]
    intro hm
    refine of_decide_eq_true (List.mem_filter.1 hm).2 ⟨⟨rfl, _, namedFor_rolledName _, ?_⟩, rfl⟩
    rw [← Date.number_lt_iff, hcutoff]
    decide
  · exact hkept _ (by simp [sampleFiles]) _ (namedFor_rolledName _) (.inr ⟨by decide, by decide⟩)

end LogFile

end JobEngine
