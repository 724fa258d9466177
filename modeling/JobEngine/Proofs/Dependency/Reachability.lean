import JobEngine.Dependency.Graph
import JobEngine.Proofs.Lookup
import Mathlib.Logic.Relation

namespace JobEngine.DependencyGraph

open Relation

variable {m : Entries} {e : Edge} {job start a b c : String}

/-- The first job waits for the second. -/
def Link (m : Entries) (job parent : String) : Prop := parent ∈ parents m job

theorem parents_of_lookup {es : List Edge} (h : m.lookup job = some es) :
    parents m job = es.map (·.parent) := by
  simp [parents, h]

theorem parents_of_lookup_eq_none (h : m.lookup job = none) : parents m job = [] := by
  simp [parents, h]

theorem parents_without (job job' : String) (m : Entries) :
    parents (without job m) job' = if job' = job then [] else parents m job' := by
  rw [parents, without, Lookup.lookup_filter_ne]
  split
  · rfl
  · rfl

theorem Link.of_without (h : Link (without job m) a b) : Link m a b := by
  rw [Link, parents_without] at h
  split at h
  · cases h
  · exact h

/-- A walk can leave out a job as long as it may start at the job's parents as well. -/
theorem exists_walk_without (h : ReflTransGen (Link m) a start) (job : String) :
    ReflTransGen (Link (without job m)) a start ∨
      ∃ b ∈ parents m job, ReflTransGen (Link (without job m)) b start := by
  induction h using ReflTransGen.head_induction_on with
  | refl => exact .inl .refl
  | @head a b hab _ ih =>
    rcases ih with ih | ih
    · by_cases ha : a = job
      · exact .inr ⟨b, ha ▸ hab, ih⟩
      · refine .inl (ih.head ?_)
        rw [Link, parents_without, if_neg ha]
        exact hab
    · exact .inr ih

theorem reaches_iff (start : String) (unseen : Entries) (pending : List String) :
    reaches start unseen pending = true ↔
      ∃ a ∈ pending, ReflTransGen (Link unseen) a start := by
  fun_induction reaches start unseen pending with
  | case1 => simp
  | case2 unseen pending => simpa using .inl .refl
  | case3 unseen job pending hj h ih =>
    have hdead : ¬ ReflTransGen (Link unseen) job start := by
      intro hr
      rcases hr.cases_head with he | ⟨b, hb, -⟩
      · exact hj he
      · rw [Link, parents_of_lookup_eq_none h] at hb
        cases hb
    simp [ih, hdead]
  | case4 unseen job pending hj es h ih =>
    have hp := parents_of_lookup h
    rw [ih]
    constructor
    · rintro ⟨a, ha, hr⟩
      have hr : ReflTransGen (Link unseen) a start :=
        ReflTransGen.mono (fun _ _ ↦ Link.of_without) _ _ hr
      rcases List.mem_append.1 ha with ha | ha
      · exact ⟨a, List.mem_cons_of_mem _ ha, hr⟩
      · exact ⟨job, List.mem_cons_self, hr.head (by rwa [Link, hp])⟩
    · rintro ⟨a, ha, hr⟩
      rcases exists_walk_without hr job with hr | ⟨b, hb, hr⟩
      · refine ⟨a, List.mem_append_left _ ?_, hr⟩
        refine (List.mem_cons.1 ha).resolve_left fun he ↦ ?_
        subst he
        rcases hr.cases_head with he | ⟨b, hb, -⟩
        · exact hj he
        · rw [Link, parents_without, if_pos rfl] at hb
          cases hb
      · exact ⟨b, List.mem_append_right _ (hp ▸ hb), hr⟩

theorem hasCycle_iff : hasCycle m start = true ↔ TransGen (Link m) start start := by
  rw [hasCycle, reaches_iff, TransGen.head'_iff]
  rfl

def Acyclic (m : Entries) : Prop := ∀ job, ¬ TransGen (Link m) job job

theorem Acyclic.mono {m' : Entries} (h : Acyclic m) (hl : ∀ a b, Link m' a b → Link m a b) :
    Acyclic m' :=
  fun job hj ↦ h job (TransGen.mono hl _ _ hj)

theorem acyclic_nil : Acyclic [] := fun job hj ↦ by
  obtain ⟨b, hb, -⟩ := TransGen.head'_iff.1 hj
  cases hb

theorem lookup_push (job job' : String) (e : Edge) (m : Entries) :
    (push job e m).lookup job' =
      if job' = job then some ((m.lookup job).getD [] ++ [e]) else m.lookup job' := by
  induction m with
  | nil => simp [push, Lookup.lookup_cons]
  | cons x m ih =>
    obtain ⟨j, es⟩ := x
    by_cases hj : j = job
    · subst hj
      simp only [push, ↓reduceIte, Lookup.lookup_cons]
      split <;> rfl
    · have hj' : job ≠ j := Ne.symm hj
      simp only [push, hj, hj', ↓reduceIte, Lookup.lookup_cons, ih]
      by_cases h : job' = j
      · simp [h, hj]
      · simp [h]

theorem parents_push (job job' : String) (e : Edge) (m : Entries) :
    parents (push job e m) job' =
      parents m job' ++ if job' = job then [e.parent] else [] := by
  rw [parents, lookup_push]
  split
  · next h => simp [parents, h]
  · simp [parents]

theorem link_push : Link (push job e m) a b ↔ Link m a b ∨ a = job ∧ b = e.parent := by
  rw [Link, parents_push, List.mem_append]
  split
  · next h => simp [Link, h]
  · next h => simp [Link, h]

theorem walk_push (h : TransGen (Link (push job e m)) a b) :
    TransGen (Link m) a b ∨
      ReflTransGen (Link (push job e m)) a job ∧
        ReflTransGen (Link (push job e m)) e.parent b := by
  induction h with
  | single h =>
    rcases link_push.1 h with h | ⟨rfl, rfl⟩
    · exact .inl (.single h)
    · exact .inr ⟨.refl, .refl⟩
  | tail hab hbc ih =>
    rcases ih with ih | ⟨h₁, h₂⟩
    · rcases link_push.1 hbc with h | ⟨rfl, rfl⟩
      · exact .inl (ih.tail h)
      · exact .inr ⟨hab.to_reflTransGen, .refl⟩
    · exact .inr ⟨h₁, h₂.tail hbc⟩

/-- An edge closes a cycle only if something waits for its job already. -/
theorem hasCycle_push_eq_false (hj : ∀ a, ¬ Link m a job) (hp : e.parent ≠ job) :
    hasCycle (push job e m) job = false := by
  rw [Bool.eq_false_iff, Ne, hasCycle_iff, TransGen.tail'_iff]
  rintro ⟨a, -, ha⟩
  rcases link_push.1 ha with ha | ⟨-, rfl⟩
  · exact hj a ha
  · exact hp rfl

theorem Acyclic.push (h : Acyclic m) (hc : hasCycle (push job e m) job = false) :
    Acyclic (push job e m) := by
  intro a ha
  rcases walk_push ha with ha | ⟨h₁, h₂⟩
  · exact h a ha
  · have hlink : Link (DependencyGraph.push job e m) job e.parent := by
      rw [Link, parents_push, if_pos rfl]
      simp
    have hcycle := TransGen.head' hlink (h₂.trans h₁)
    rw [← hasCycle_iff, hc] at hcycle
    cases hcycle

end JobEngine.DependencyGraph
