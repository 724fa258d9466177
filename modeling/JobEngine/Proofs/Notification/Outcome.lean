import JobEngine.Notification.Channel
import Mathlib.Data.List.Basic

namespace JobEngine

/-- Whether the result itself tells a failure, be there an error or not. -/
def Work.ResultFailed (w : Work) : Prop :=
  (∃ r : SyncResult, w = .corpusSync (some r) ∧ r.ok = false) ∨ ∃ args, w = .dummy args none

theorem Work.succeeded_iff (w : Work) : w.succeeded = true ↔ ¬ w.ResultFailed := by
  cases w with
  | corpusSync result => cases result <;> simp [succeeded, ResultFailed]
  | dummy args result => cases result <;> simp [succeeded, ResultFailed]
  | liveAttributes | indexUpdate | ngrams | keywords => simp [succeeded, ResultFailed]

theorem Job.ok_iff (j : Job) : j.ok = true ↔ j.error = none ∧ ¬ j.work.ResultFailed := by
  rw [Job.ok, Bool.and_eq_true, Option.isNone_iff_eq_none, Work.succeeded_iff]

namespace Notification

def successSentence : String := "Job finished without errors"

def TellsSuccess (n : Notification) : Prop := successSentence.toList <+: n.body.toList

instance (n : Notification) : Decidable n.TellsSuccess :=
  inferInstanceAs (Decidable (successSentence.toList <+: n.body.toList))

/-- The flag `job.ok` as a webhook reads it from the payload. -/
def webhookFlag? (n : Notification) : Option Json := do
  let .obj payload := n.payload | none
  let .obj job ← payload.lookup "job" | none
  job.lookup "ok"

theorem webhookFlag?_eq (n : Notification) : n.webhookFlag? = some (.bool n.ok) :=
  rfl

theorem toList_body_ofJob (j : Job) :
    ∃ rest, (ofJob j).body.toList = j.outcome.toList ++ rest := by
  refine ⟨s!"\n\nJob ID: {j.id}\nStarted: {j.start.textWithOffset}\n".toList ++
    s!"Finished: {j.update.textWithOffset}".toList, ?_⟩
  simp only [ofJob, String.toList_append, List.append_assoc]
  rfl

theorem not_isPrefix_failure (e : String) (rest : List Char) :
    ¬ successSentence.toList <+: ("Job finished with error: " ++ e).toList ++ rest := by
  rintro ⟨more, h⟩
  have ht := congrArg (List.take 18) h
  rw [String.toList_append, List.append_assoc, List.take_append_of_le_length (by decide),
    List.take_append_of_le_length (by decide)] at ht
  exact absurd ht (by decide)

theorem tellsSuccess_ofJob (j : Job) : (ofJob j).TellsSuccess ↔ j.error = none := by
  obtain ⟨rest, hb⟩ := toList_body_ofJob j
  rw [TellsSuccess, hb, Job.outcome]
  cases j.error with
  | none => exact ⟨fun _ ↦ rfl, fun _ ↦ List.prefix_append _ _⟩
  | some e => exact ⟨fun h ↦ absurd h (not_isPrefix_failure e _), fun h ↦ nomatch h⟩

/-- Whoever goes by the flag learns the same, and a flag of success comes with the sentence of
success. Flag and sentence disagree exactly if there is no error but the result tells a failure. -/
theorem outcome_told (j : Job) :
    let n := ofJob j
    (n.logEntry.warning = !n.ok ∧ n.webhookFlag? = some (.bool n.ok)) ∧
      (n.ok = true → n.TellsSuccess) ∧
      (¬ (n.ok = true ↔ n.TellsSuccess) ↔ j.error = none ∧ j.work.ResultFailed) := by
  intro n
  have hn : n.ok = true ↔ j.error = none ∧ ¬ j.work.ResultFailed := j.ok_iff
  have ht : n.TellsSuccess ↔ j.error = none := tellsSuccess_ofJob j
  refine ⟨⟨rfl, n.webhookFlag?_eq⟩, fun h ↦ ht.mpr (hn.mp h).1, ?_⟩
  rw [hn, ht]
  by_cases he : j.error = none <;> simp [he]

def failedSync : Job :=
  { id := "sync", corpusId := "syn2020", finished := true
    start := (Instant.ofSeconds? 1714564800 0).get (by decide)
    update := (Instant.ofSeconds? 1714564805 0).get (by decide)
    work := .corpusSync (some { ok := false, returnCode := 23 }) }

/-- The log has a warning and the webhook a flag of failure, with the sentence of success. -/
theorem failedSync_contradictory :
    failedSync.finished = true ∧ (ofJob failedSync).ok = false ∧
      (ofJob failedSync).logEntry.warning = true ∧
      (ofJob failedSync).webhookFlag? = some (.bool false) ∧ (ofJob failedSync).TellsSuccess ∧
      ¬ ((ofJob failedSync).ok = true ↔ (ofJob failedSync).TellsSuccess) := by
  have ht : (ofJob failedSync).TellsSuccess := (tellsSuccess_ofJob failedSync).mpr rfl
  exact ⟨rfl, rfl, rfl, rfl, ht, fun h ↦ nomatch h.mpr ht⟩

end Notification

end JobEngine
