import JobEngine.Proofs.Dependency.Reachability

namespace JobEngine.DependencyGraph

variable {g : DependencyGraph} {m : Entries} {e : Edge} {job job' parent : String}

/-- The edges of a job; a job without an entry has none. -/
def edgesOf (g : DependencyGraph) (job : String) : List Edge := (g.entries.lookup job).getD []

theorem edgesOf_of_edges {es : List Edge} (h : g.edges job = .ok es) : g.edgesOf job = es := by
  unfold edges at h
  split at h
  · next h' =>
    cases h
    rw [edgesOf, h', Option.getD_some]
  · cases h

theorem link_iff : Link g.entries job parent ↔ ∃ e ∈ g.edgesOf job, e.parent = parent :=
  List.mem_map

theorem edgesOf_push (g : DependencyGraph) (job job' : String) (e : Edge) :
    edgesOf ⟨push job e g.entries⟩ job' =
      if job' = job then g.edgesOf job ++ [e] else g.edgesOf job' := by
  rw [edgesOf, lookup_push]
  split <;> rfl

theorem edgesOf_remove (g : DependencyGraph) (job job' : String) :
    (g.remove job).2.edgesOf job' = if job' = job then [] else g.edgesOf job' := by
  rw [edgesOf, remove, without, Lookup.lookup_filter_ne]
  split <;> rfl

theorem mem_push {x : String × List Edge} (h : x ∈ push job e m) :
    x ∈ m ∨ x = (job, (m.lookup job).getD [] ++ [e]) := by
  induction m with
  | nil => exact .inr (by simpa [push] using h)
  | cons y m ih =>
    obtain ⟨j, es⟩ := y
    by_cases hj : j = job
    · subst hj
      simp only [push, ↓reduceIte, List.mem_cons] at h
      rcases h with rfl | h
      · exact .inr (by simp)
      · exact .inl (List.mem_cons_of_mem _ h)
    · simp only [push, hj, ↓reduceIte, List.mem_cons] at h
      rw [Lookup.lookup_cons, if_neg (Ne.symm hj)]
      rcases h with rfl | h
      · exact .inl List.mem_cons_self
      · exact (ih h).imp_left (List.mem_cons_of_mem _)

theorem pop_push (h : ∀ x ∈ m, x.2 ≠ []) : pop job (push job e m) = m := by
  induction m with
  | nil => simp [push, pop]
  | cons x m ih =>
    obtain ⟨j, es⟩ := x
    have he : es ≠ [] := h _ List.mem_cons_self
    by_cases hj : j = job
    · simp [push, pop, hj, he]
    · simp [push, pop, hj, ih fun y hy ↦ h y (List.mem_cons_of_mem _ hy)]

structure WellFormed (g : DependencyGraph) : Prop where
  acyclic : Acyclic g.entries
  nonempty : ∀ x ∈ g.entries, x.2 ≠ []
  distinct : ∀ x ∈ g.entries, (x.2.map (·.parent)).Nodup

theorem wellFormed_default : ({} : DependencyGraph).WellFormed :=
  ⟨acyclic_nil, by simp, by simp⟩

/-- An edge is either refused, and then nothing changes, or appended. -/
theorem add_cases (h : g.WellFormed) (now : Instant) (job parent : String) :
    (∃ c, g.add now job parent = (.error c, g)) ∨
      g.add now job parent = (.ok (), ⟨push job { created := now, parent } g.entries⟩) ∧
        (∀ e ∈ g.edgesOf job, e.parent ≠ parent) ∧
        hasCycle (push job { created := now, parent } g.entries) job = false := by
  unfold add
  split
  · exact .inl ⟨_, rfl⟩
  · next hd =>
    by_cases hc : hasCycle (push job { created := now, parent } g.entries) job = true
    · exact .inl ⟨.circular, by simp [hc, pop_push h.nonempty]⟩
    · exact .inr ⟨by simp [hc], by simpa [edgesOf] using hd, by simpa using hc⟩

theorem add_eq_ok (hnew : ¬ Link g.entries job parent) (hleaf : ∀ a, ¬ Link g.entries a job)
    (hne : parent ≠ job) (now : Instant) :
    (g.add now job parent).1 = .ok () := by
  have hcycle : hasCycle (push job { created := now, parent } g.entries) job = false :=
    hasCycle_push_eq_false hleaf hne
  have hdup : ((g.entries.lookup job).getD []).any (·.parent = parent) = false := by
    rw [Bool.eq_false_iff]
    intro hany
    obtain ⟨e, he, hp⟩ := List.any_eq_true.1 hany
    exact hnew (link_iff.2 ⟨e, he, of_decide_eq_true hp⟩)
  simp [add, hdup, hcycle]

theorem WellFormed.add (h : g.WellFormed) (now : Instant) (job parent : String) :
    (g.add now job parent).2.WellFormed := by
  rcases add_cases h now job parent with ⟨c, he⟩ | ⟨he, hd, hc⟩
  · rw [he]
    exact h
  · rw [he]
    refine ⟨h.acyclic.push hc, fun x hx ↦ ?_, fun x hx ↦ ?_⟩
    · rcases mem_push hx with hx | rfl
      · exact h.nonempty x hx
      · simp
    · rcases mem_push hx with hx | rfl
      · exact h.distinct x hx
      · have hn : (((g.entries.lookup job).getD []).map (·.parent)).Nodup := by
          cases hl : g.entries.lookup job with
          | none => simp
          | some es => exact h.distinct _ (Lookup.mem_of_lookup hl)
        rw [List.map_append, List.nodup_append]
        refine ⟨hn, by simp, fun p hp p' hp' ↦ ?_⟩
        obtain ⟨e, hmem, rfl⟩ := List.mem_map.1 hp
        obtain rfl : p' = parent := by simpa using hp'
        exact hd e hmem

/-- Adding gives at most one edge more, which is pending. -/
theorem mem_edgesOf_add (h : g.WellFormed) {now : Instant}
    (he : e ∈ (g.add now job parent).2.edgesOf job') :
    e ∈ g.edgesOf job' ∨ e = { created := now, parent } := by
  rcases add_cases h now job parent with ⟨c, hc⟩ | ⟨hc, -⟩
  · rw [hc] at he
    exact .inl he
  · rw [hc, edgesOf_push] at he
    split at he
    · next hj =>
      subst hj
      exact (List.mem_append.1 he).imp_right List.mem_singleton.1
    · exact .inl he

def mapValues (f : String → List Edge → List Edge) (g : DependencyGraph) : DependencyGraph :=
  ⟨g.entries.map fun x ↦ (x.1, f x.1 x.2)⟩

theorem edgesOf_mapValues {f : String → List Edge → List Edge} (hf : f job [] = []) :
    (g.mapValues f).edgesOf job = f job (g.edgesOf job) := by
  rw [edgesOf, mapValues, Lookup.lookup_map_values, edgesOf]
  cases g.entries.lookup job with
  | none => exact hf.symm
  | some es => rfl

theorem edgesOf_mapEdges (g : DependencyGraph) (f : Edge → Edge) (job : String) :
    (g.mapEdges f).edgesOf job = (g.edgesOf job).map f :=
  edgesOf_mapValues (f := fun _ es ↦ es.map f) rfl

theorem mem_mapEdges_parent {f : Edge → Edge} (hf : ∀ e, (f e).parent = e.parent)
    (h : e ∈ (g.mapEdges fun e ↦ if e.parent = parent then f e else e).edgesOf job) :
    (e.parent = parent ∧ ∃ e₀, e = f e₀) ∨ e.parent ≠ parent ∧ e ∈ g.edgesOf job := by
  rw [edgesOf_mapEdges] at h
  obtain ⟨e₀, he, rfl⟩ := List.mem_map.1 h
  by_cases hp : e₀.parent = parent
  · rw [if_pos hp]
    exact .inl ⟨(hf e₀).trans hp, e₀, rfl⟩
  · rw [if_neg hp]
    exact .inr ⟨hp, he⟩

theorem mem_setParentFinished {b : Bool} (h : e ∈ (g.setParentFinished parent b).edgesOf job) :
    (e.parent = parent ∧ e.finished = true ∧ e.hasError = b) ∨
      e.parent ≠ parent ∧ e ∈ g.edgesOf job := by
  rcases mem_mapEdges_parent (f := fun e ↦ { e with finished := true, hasError := b })
    (fun _ ↦ rfl) h with ⟨hp, _, rfl⟩ | h
  · exact .inl ⟨hp, rfl, rfl⟩
  · exact .inr h

theorem mem_reopenParent (h : e ∈ (g.reopenParent parent).edgesOf job) :
    (e.parent = parent ∧ e.finished = false ∧ e.hasError = false) ∨
      e.parent ≠ parent ∧ e ∈ g.edgesOf job := by
  rcases mem_mapEdges_parent (f := fun e ↦ { e with finished := false, hasError := false })
    (fun _ ↦ rfl) h with ⟨hp, _, rfl⟩ | h
  · exact .inl ⟨hp, rfl, rfl⟩
  · exact .inr h

theorem edgesOf_refreshEdges (g : DependencyGraph) (job job' : String)
    (status : String → Option (Bool × Bool)) :
    (g.refreshEdges job status).edgesOf job' =
      if job' = job then (g.edgesOf job').map (Edge.refresh status) else g.edgesOf job' :=
  edgesOf_mapValues (f := fun j es ↦ if j = job then es.map (Edge.refresh status) else es)
    (ite_self _)

theorem link_mapValues {f : String → List Edge → List Edge}
    (hf : ∀ job es, (f job es).map (·.parent) = es.map (·.parent)) :
    Link (g.mapValues f).entries job parent ↔ Link g.entries job parent := by
  have h0 : f job [] = [] := List.map_eq_nil_iff.1 (hf job [])
  simp only [Link, parents]
  change parent ∈ ((g.mapValues f).edgesOf job).map (·.parent) ↔ _
  rw [edgesOf_mapValues h0, hf]
  rfl

theorem link_mapEdges {f : Edge → Edge} (hf : ∀ e, (f e).parent = e.parent) :
    Link (g.mapEdges f).entries job parent ↔ Link g.entries job parent := by
  refine link_mapValues (f := fun _ es ↦ es.map f) fun _ es ↦ ?_
  rw [List.map_map]
  exact List.map_congr_left fun e _ ↦ hf e

theorem link_setParentFinished {id : String} {b : Bool} :
    Link (g.setParentFinished id b).entries job parent ↔ Link g.entries job parent :=
  link_mapEdges fun e ↦ by split <;> rfl

theorem link_reopenParent {id : String} :
    Link (g.reopenParent id).entries job parent ↔ Link g.entries job parent :=
  link_mapEdges fun e ↦ by split <;> rfl

theorem WellFormed.mapValues (h : g.WellFormed) {f : String → List Edge → List Edge}
    (hf : ∀ job es, (f job es).map (·.parent) = es.map (·.parent)) :
    (g.mapValues f).WellFormed := by
  refine ⟨h.acyclic.mono fun _ _ hl ↦ (link_mapValues hf).1 hl, fun x hx ↦ ?_, fun x hx ↦ ?_⟩
  · obtain ⟨y, hy, rfl⟩ := List.mem_map.1 hx
    intro (h0 : f y.1 y.2 = [])
    have hp : y.2.map (·.parent) = [] := by rw [← hf y.1, h0, List.map_nil]
    exact h.nonempty y hy (List.map_eq_nil_iff.1 hp)
  · obtain ⟨y, hy, rfl⟩ := List.mem_map.1 hx
    rw [hf]
    exact h.distinct y hy

theorem WellFormed.mapEdges (h : g.WellFormed) {f : Edge → Edge}
    (hf : ∀ e, (f e).parent = e.parent) : (g.mapEdges f).WellFormed :=
  h.mapValues (f := fun _ es ↦ es.map f) fun _ es ↦ by
    rw [List.map_map]
    exact List.map_congr_left fun e _ ↦ hf e

theorem WellFormed.setParentFinished (h : g.WellFormed) (parent : String) (hasError : Bool) :
    (g.setParentFinished parent hasError).WellFormed :=
  h.mapEdges fun e ↦ by split <;> rfl

theorem WellFormed.reopenParent (h : g.WellFormed) (parent : String) :
    (g.reopenParent parent).WellFormed :=
  h.mapEdges fun e ↦ by split <;> rfl

theorem refresh_parent (status : String → Option (Bool × Bool)) (e : Edge) :
    (e.refresh status).parent = e.parent := by
  unfold Edge.refresh
  split <;> rfl

theorem link_refreshEdges {id : String} {status : String → Option (Bool × Bool)} :
    Link (g.refreshEdges id status).entries job parent ↔ Link g.entries job parent := by
  refine link_mapValues (f := fun j es ↦ if j = id then es.map (Edge.refresh status) else es)
    fun j es ↦ ?_
  split
  · rw [List.map_map]
    exact List.map_congr_left fun e _ ↦ refresh_parent status e
  · rfl

theorem WellFormed.refreshEdges (h : g.WellFormed) (job : String)
    (status : String → Option (Bool × Bool)) : (g.refreshEdges job status).WellFormed :=
  h.mapValues (f := fun j es ↦ if j = job then es.map (Edge.refresh status) else es)
    fun j es ↦ by
      split
      · rw [List.map_map]
        exact List.map_congr_left fun e _ ↦ refresh_parent status e
      · rfl

theorem WellFormed.remove (h : g.WellFormed) (job : String) : (g.remove job).2.WellFormed :=
  ⟨h.acyclic.mono fun _ _ ↦ Link.of_without,
    fun x hx ↦ h.nonempty x (List.mem_of_mem_filter hx),
    fun x hx ↦ h.distinct x (List.mem_of_mem_filter hx)⟩

theorem keys_push (job : String) (e : Edge) (m : Entries) :
    (push job e m).map (·.1) =
      if job ∈ m.map (·.1) then m.map (·.1) else m.map (·.1) ++ [job] := by
  induction m with
  | nil => rfl
  | cons x m ih =>
    obtain ⟨j, es⟩ := x
    by_cases hj : j = job
    · simp [push, hj]
    · have hj' : job ≠ j := Ne.symm hj
      simp only [push, hj, ↓reduceIte, List.map_cons, ih, List.mem_cons, hj', false_or]
      split <;> rfl

theorem nodup_keys_push (h : (m.map (·.1)).Nodup) : ((push job e m).map (·.1)).Nodup := by
  rw [keys_push]
  split
  · exact h
  · next hj =>
    rw [List.nodup_append]
    refine ⟨h, List.nodup_singleton job, ?_⟩
    intro j hm j' hj' he
    rw [List.mem_singleton.1 hj'] at he
    exact hj (he ▸ hm)

inductive Call
  | add (now : Instant) (job parent : String)
  | setParentFinished (parent : String) (hasError : Bool)
  | reopenParent (parent : String)
  | refreshEdges (job : String) (status : String → Option (Bool × Bool))
  | remove (job : String)

def after (g : DependencyGraph) : Call → DependencyGraph
  | .add now job parent => (g.add now job parent).2
  | .setParentFinished parent hasError => g.setParentFinished parent hasError
  | .reopenParent parent => g.reopenParent parent
  | .refreshEdges job status => g.refreshEdges job status
  | .remove job => (g.remove job).2

theorem WellFormed.after (h : g.WellFormed) (c : Call) : (g.after c).WellFormed := by
  cases c with
  | add now job parent => exact h.add now job parent
  | setParentFinished parent hasError => exact h.setParentFinished parent hasError
  | reopenParent parent => exact h.reopenParent parent
  | refreshEdges job status => exact h.refreshEdges job status
  | remove job => exact h.remove job

theorem keys_mapValues (f : String → List Edge → List Edge) (g : DependencyGraph) :
    (g.mapValues f).entries.map (·.1) = g.entries.map (·.1) := by
  rw [mapValues, List.map_map]
  rfl

theorem keys_mapEdges (f : Edge → Edge) (g : DependencyGraph) :
    (g.mapEdges f).entries.map (·.1) = g.entries.map (·.1) :=
  keys_mapValues (fun _ es ↦ es.map f) g

theorem keys_refreshEdges (job : String) (status : String → Option (Bool × Bool))
    (g : DependencyGraph) :
    (g.refreshEdges job status).entries.map (·.1) = g.entries.map (·.1) :=
  keys_mapValues (fun j es ↦ if j = job then es.map (Edge.refresh status) else es) g

theorem WellFormed.nodup_keys_after (h : g.WellFormed) (hn : (g.entries.map (·.1)).Nodup)
    (c : Call) : ((g.after c).entries.map (·.1)).Nodup := by
  cases c with
  | add now job parent =>
    rcases add_cases h now job parent with ⟨_, he⟩ | ⟨he, -, -⟩
    · simpa only [DependencyGraph.after, he] using hn
    · simpa only [DependencyGraph.after, he] using nodup_keys_push hn
  | setParentFinished parent hasError =>
    rwa [DependencyGraph.after, DependencyGraph.setParentFinished, keys_mapEdges]
  | reopenParent parent => rwa [DependencyGraph.after, DependencyGraph.reopenParent, keys_mapEdges]
  | refreshEdges job status => rwa [DependencyGraph.after, keys_refreshEdges]
  | remove job => exact hn.sublist (List.filter_sublist.map _)

theorem WellFormed.afterAll (h : g.WellFormed) (hn : (g.entries.map (·.1)).Nodup)
    (calls : List Call) : (calls.foldl DependencyGraph.after g).WellFormed ∧
      ((calls.foldl DependencyGraph.after g).entries.map (·.1)).Nodup := by
  induction calls generalizing g with
  | nil => exact ⟨h, hn⟩
  | cons c calls ih => exact ih (h.after c) (h.nodup_keys_after hn c)

/-- After any calls on a new graph no job can reach itself along parents, and every job has one
entry at most, with an edge in it and every parent once. -/
theorem calls_keep_acyclic (calls : List Call) :
    (∀ job, ¬ Relation.TransGen (Link (calls.foldl after {}).entries) job job) ∧
    ((calls.foldl after {}).entries.map (·.1)).Nodup ∧
    ∀ job es, (calls.foldl after {}).edges job = .ok es →
      es ≠ [] ∧ (es.map (·.parent)).Nodup := by
  obtain ⟨hw, hn⟩ := wellFormed_default.afterAll List.nodup_nil calls
  refine ⟨hw.acyclic, hn, ?_⟩
  intro job es hes
  have hm : (job, es) ∈ (calls.foldl after {}).entries := by
    unfold edges at hes
    split at hes
    · next hl =>
      cases hes
      exact Lookup.mem_of_lookup hl
    · cases hes
  exact ⟨hw.nonempty _ hm, hw.distinct _ hm⟩

end JobEngine.DependencyGraph
