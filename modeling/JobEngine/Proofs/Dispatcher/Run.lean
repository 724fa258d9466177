import JobEngine.Dispatcher.Dispatch
import JobEngine.Dispatcher.Persistence
import JobEngine.Dispatcher.Retention
import JobEngine.Dispatcher.Submit

namespace JobEngine.Dispatcher

variable {τ : Type}

inductive Operation (τ : Type)
  | load (s : Store) (fs : FileSystem)
  | enqueue (task : τ) (j : Job)
  | enqueueAfter (task : τ) (j : Job) (parent : String)
  | dispatchReady
  | report (ticket : Nat) (j : Job)
  | taskOver (ticket : Nat) (panicked : Bool)
  | handleStop (id : String)
  | restart (j : Job)
  | resume
  | clearIfFinished (id : String)
  | prune (age : Int)
  | delayNext

def perform (d : Dispatcher τ) (now : Instant) : Operation τ → Dispatcher τ
  | .load s fs => (d.loadState s fs).2
  | .enqueue task j => d.enqueue task j
  | .enqueueAfter task j parent => (d.enqueueAfter now task j parent).2
  | .dispatchReady => d.dispatchReady now
  | .report ticket j => d.report ticket j
  | .taskOver ticket panicked => d.taskOver now ticket panicked
  | .handleStop id => d.handleStop now id
  | .restart j => (d.restart now j).2
  | .resume => (d.resume now).2
  | .clearIfFinished id => (d.clearIfFinished id).2
  | .prune age => ((d.prune now age).map (·.2)).getD d
  | .delayNext => d.delayNext.2

structure Step (τ : Type) where
  before : Dispatcher τ
  now : Instant
  operation : Operation τ

/-- The runs in which `ok` allows every operation, the latest step first. -/
inductive Run (ok : List (Step τ) → Dispatcher τ → Operation τ → Prop) :
    List (Step τ) → Dispatcher τ → Prop
  | start (processors : UInt64) (config : JobsConfig) (runners : Runners τ) :
    Run ok [] (create processors config runners)
  | step {past : List (Step τ)} {d : Dispatcher τ} (now : Instant) (o : Operation τ) :
    Run ok past d → ok past d o → Run ok (⟨d, now, o⟩ :: past) (d.perform now o)

def Knows (d : Dispatcher τ) (id : String) : Prop :=
  d.registry.contains id = true ∨ d.detached.contains id = true

instance (d : Dispatcher τ) (id : String) : Decidable (d.Knows id) :=
  inferInstanceAs (Decidable (_ ∨ _))

def Used (past : List (Step τ)) (d : Dispatcher τ) (id : String) : Prop :=
  d.Knows id ∨ ∃ s ∈ past, s.before.Knows id

instance (past : List (Step τ)) (d : Dispatcher τ) (id : String) : Decidable (Used past d id) :=
  inferInstanceAs (Decidable (_ ∨ _))

/-- Whether an operation is one that callers may ask for: the state file is read at the very
beginning, and holds every id once; submitted jobs are unfinished and have new ids. -/
def Proper (past : List (Step τ)) (d : Dispatcher τ) : Operation τ → Prop
  | .load s fs => past = [] ∧ ((s.loadOrEmpty fs).map (·.id)).Nodup
  | .enqueue _ j | .enqueueAfter _ j _ => j.finished = false ∧ ¬ Used past d j.id
  | _ => True

instance (past : List (Step τ)) (d : Dispatcher τ) (o : Operation τ) :
    Decidable (Proper past d o) :=
  match o with
  | .load s fs =>
    decidable_of_iff (past.isEmpty = true ∧ ((s.loadOrEmpty fs).map (·.id)).Nodup)
      (by simp [Proper])
  | .enqueue _ _ | .enqueueAfter _ _ _ => inferInstanceAs (Decidable (_ ∧ _))
  | .dispatchReady | .report _ _ | .taskOver _ _ | .handleStop _ | .restart _ | .resume
  | .clearIfFinished _ | .prune _ | .delayNext => isTrue trivial

/-- The record that the registry held for an id before it left the registry. -/
def lastRecord (past : List (Step τ)) (id : String) : Option Job :=
  past.findSome? (·.before.registry.get? id)

/-- The most recent record of an id: that of the registry, or the last one it had there. -/
def latest (past : List (Step τ)) (d : Dispatcher τ) (id : String) : Option Job :=
  (d.registry.get? id).or (lastRecord past id)

theorem lastRecord_cons (d : Dispatcher τ) (now : Instant) (o : Operation τ) (past : List (Step τ))
    (id : String) : lastRecord (⟨d, now, o⟩ :: past) id = latest past d id := by
  simp only [lastRecord, latest, List.findSome?_cons]
  cases d.registry.get? id <;> rfl

theorem get?_of_not_used {past : List (Step τ)} {d : Dispatcher τ} {id : String}
    (h : ¬ Used past d id) :
    d.registry.get? id = none ∧ d.detached.get? id = none ∧ lastRecord past id = none := by
  simp only [Used, Knows, Registry.contains, not_or, not_exists, not_and, Bool.not_eq_true,
    Option.isSome_eq_false_iff, Option.isNone_iff_eq_none] at h
  exact ⟨h.1.1, h.1.2, List.findSome?_eq_none_iff.2 fun s hs ↦ (h.2 s hs).1⟩

theorem Run.eq_create {ok : List (Step τ) → Dispatcher τ → Operation τ → Prop} {d : Dispatcher τ}
    (h : Run ok [] d) : ∃ processors config runners, d = create processors config runners := by
  cases h with
  | start processors config runners => exact ⟨processors, config, runners, rfl⟩

theorem Run.mono {ok ok' : List (Step τ) → Dispatcher τ → Operation τ → Prop}
    {past : List (Step τ)} {d : Dispatcher τ} (h : Run ok past d)
    (hok : ∀ past d o, ok past d o → ok' past d o) : Run ok' past d := by
  induction h with
  | start processors config runners => exact .start processors config runners
  | step now o _ ho ih => exact ih.step now o (hok _ _ _ ho)

theorem Run.before {ok : List (Step τ) → Dispatcher τ → Operation τ → Prop}
    {later earlier : List (Step τ)} {s : Step τ} {d : Dispatcher τ}
    (h : Run ok (later ++ s :: earlier) d) : Run ok earlier s.before := by
  induction later generalizing d with
  | nil =>
    cases h with
    | step now o h _ => exact h
  | cons s' later ih =>
    cases h with
    | step now o h _ => exact ih h

def replay (now : Instant) (past : List (Step τ)) (d : Dispatcher τ) :
    List (Operation τ) → List (Step τ) × Dispatcher τ
  | [] => (past, d)
  | o :: os => replay now (⟨d, now, o⟩ :: past) (d.perform now o) os

def sampleInstant : Instant where
  date := ⟨2024, 1, 1, by decide, by decide, by decide, by decide⟩
  second := 43200
  nano := 0
  second_lt := by decide
  nano_lt := by decide
  leap := by decide

def sampleJob (id : String) : Job := Job.create id "corpus" sampleInstant (.corpusSync none)

def sample : List (Step Unit) × Dispatcher Unit :=
  replay sampleInstant [] (create 1 {} {})
    [.enqueue () (sampleJob "first"), .enqueueAfter () (sampleJob "second") "first",
      .dispatchReady, .report 1 ((sampleJob "first").finish sampleInstant)]

theorem sample_run : Run Proper sample.1 sample.2 := by
  have h : Run Proper [] (create 1 {} ({} : Runners Unit)) := .start 1 {} {}
  have h := h.step sampleInstant (.enqueue () (sampleJob "first")) (by decide +kernel)
  have h := h.step sampleInstant (.enqueueAfter () (sampleJob "second") "first")
    (by decide +kernel)
  have h := h.step sampleInstant .dispatchReady trivial
  exact h.step sampleInstant (.report 1 ((sampleJob "first").finish sampleInstant)) trivial

end JobEngine.Dispatcher
