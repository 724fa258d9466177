import JobEngine.Notification.Service
import Mathlib.Data.List.Basic

namespace JobEngine

/-- One sending: the place of the endpoint, what was sent and what came back. -/
structure Delivery where
  number : ℕ
  notification : Notification
  answer : Except Error Unit

def Delivery.succeeded (d : Delivery) : Bool := d.answer.isOk

/-- The endpoint, noting what is sent through it under a number. -/
def Endpoint.noting {σ : Type} (e : Endpoint σ) (number : ℕ) : Endpoint (σ × List Delivery) where
  enabled := e.enabled
  send n w :=
    let (answer, v) := e.send n w.1
    (answer, v, w.2 ++ [⟨number, n, answer⟩])

namespace Service

variable {σ : Type}

def noteFrom (first : ℕ) (es : List (Endpoint σ)) : List (Endpoint (σ × List Delivery)) :=
  (es.zipIdx first).map fun p ↦ p.1.noting p.2

def noting (s : Service σ) : Service (σ × List Delivery) :=
  { s with endpoints := noteFrom 0 s.endpoints }

def reportAll : List Job → Service σ → σ → List (Except Error Unit) × Service σ × σ
  | [], s, w => ([], s, w)
  | j :: jobs, s, w =>
    let (answer, s, w) := s.jobFinished j w
    let (answers, s, w) := reportAll jobs s w
    (answer :: answers, s, w)

def takers (first : ℕ) (es : List (Endpoint σ)) : List ℕ :=
  ((es.zipIdx first).filter (·.1.enabled)).map (·.2)

/-- The counters after some deliveries. -/
def tally (s : Service σ) (sent : List Delivery) : Service σ :=
  { s with
    delivered := s.delivered + sent.countP (·.succeeded)
    failed := s.failed + sent.countP fun d ↦ !d.succeeded }

theorem tally_append (s : Service σ) (sent more : List Delivery) :
    s.tally (sent ++ more) = (s.tally sent).tally more := by
  simp only [tally, List.countP_append, Nat.add_assoc]

theorem count_eq_tally (s : Service σ) (d : Delivery) : s.count d.answer = s.tally [d] := by
  obtain ⟨number, n, answer⟩ := d
  cases answer <;> rfl

theorem sendAll_noting (n : Notification) (es : List (Endpoint σ)) (first : ℕ) (s : Service σ)
    (w : σ) (notes : List Delivery) : ∃ sent : List Delivery,
      (sendAll n es s w).1 = s.tally sent ∧
      sendAll n (noteFrom first es) s.noting (w, notes) =
        ((s.tally sent).noting, (sendAll n es s w).2, notes ++ sent) ∧
      sent.map (fun d ↦ (d.number, d.notification)) = (takers first es).map (·, n) := by
  induction es generalizing first s w notes with
  | nil => exact ⟨[], rfl, by rw [List.append_nil]; rfl, rfl⟩
  | cons e es ih =>
    have hc : noteFrom first (e :: es) = e.noting first :: noteFrom (first + 1) es := rfl
    have hn : (e.noting first).enabled = e.enabled := rfl
    by_cases he : e.enabled
    · let d : Delivery := ⟨first, n, (e.send n w).1⟩
      obtain ⟨sent, h₁, h₂, h₃⟩ := ih (first + 1) (s.tally [d]) (e.send n w).2 (notes ++ [d])
      have hs : s.tally (d :: sent) = (s.tally [d]).tally sent := s.tally_append [d] sent
      have hw : sendAll n (e :: es) s w = sendAll n es (s.tally [d]) (e.send n w).2 := by
        rw [sendAll, if_pos he, ← count_eq_tally]
      refine ⟨d :: sent, ?_, ?_, ?_⟩
      · rw [hw, h₁, hs]
      · have hq : s.noting.count d.answer = (s.tally [d]).noting := s.noting.count_eq_tally d
        rw [hw, hs, List.append_cons, ← h₂, hc, sendAll, if_pos (hn.trans he), ← hq]
        rfl
      · rw [List.map_cons, h₃]
        simp [takers, he, d]
    · obtain ⟨sent, h₁, h₂, h₃⟩ := ih (first + 1) s w notes
      refine ⟨sent, ?_, ?_, ?_⟩
      · rwa [sendAll, if_neg he]
      · rwa [hc, sendAll, if_neg (hn ▸ he), sendAll, if_neg he]
      · rw [h₃]
        simp [takers, he]

theorem notify_noting (s : Service σ) (n : Notification) (w : σ) (notes : List Delivery) :
    ∃ sent : List Delivery, (s.notify n w).1 = s.tally sent ∧
      s.noting.notify n (w, notes) =
        ((s.tally sent).noting, (s.notify n w).2, notes ++ sent) ∧
      sent.map (fun d ↦ (d.number, d.notification)) =
        if s.enabled then (takers 0 s.endpoints).map (·, n) else [] := by
  have hn : s.noting.enabled = s.enabled := rfl
  unfold notify
  rw [hn]
  split
  · exact sendAll_noting n s.endpoints 0 s w notes
  · exact ⟨[], rfl, by rw [List.append_nil]; rfl, rfl⟩

theorem reportAll_noting (jobs : List Job) (s : Service σ) (w : σ) (notes : List Delivery) :
    ∃ sent : List Delivery, (reportAll jobs s w).2.1 = s.tally sent ∧
      (reportAll jobs s w).1 = jobs.map (fun _ ↦ .ok ()) ∧
      reportAll jobs s.noting (w, notes) =
        ((reportAll jobs s w).1, (s.tally sent).noting, (reportAll jobs s w).2.2, notes ++ sent) ∧
      sent.map (fun d ↦ (d.number, d.notification)) =
        if s.enabled then jobs.flatMap fun j ↦ (takers 0 s.endpoints).map (·, .ofJob j)
        else [] := by
  induction jobs generalizing s w notes with
  | nil => exact ⟨[], rfl, rfl, by rw [List.append_nil]; rfl, by simp⟩
  | cons j jobs ih =>
    obtain ⟨sent, h₁, h₂, h₃⟩ := s.notify_noting (.ofJob j) w notes
    obtain ⟨more, h₄, h₅, h₆, h₇⟩ := ih (s.tally sent) (s.notify (.ofJob j) w).2 (notes ++ sent)
    have hr : reportAll (j :: jobs) s w =
        (.ok () :: (reportAll jobs (s.tally sent) (s.notify (.ofJob j) w).2).1,
          (reportAll jobs (s.tally sent) (s.notify (.ofJob j) w).2).2) := by
      rw [reportAll, jobFinished, ← h₁]
    have hn : reportAll (j :: jobs) s.noting (w, notes) =
        (.ok () :: (reportAll jobs (s.tally sent).noting
            ((s.notify (.ofJob j) w).2, notes ++ sent)).1,
          (reportAll jobs (s.tally sent).noting
            ((s.notify (.ofJob j) w).2, notes ++ sent)).2) := by
      rw [reportAll, jobFinished, h₂]
    refine ⟨sent ++ more, ?_, ?_, ?_, ?_⟩
    · rw [hr, tally_append, ← h₄]
    · rw [hr, h₅, List.map_cons]
    · rw [hn, h₆, hr, tally_append, List.append_assoc]
    · have h₇ : more.map (fun d ↦ (d.number, d.notification)) = if s.enabled then
          jobs.flatMap fun j ↦ (takers 0 s.endpoints).map (·, .ofJob j) else [] := h₇
      rw [List.map_append, h₃, h₇]
      split
      · rfl
      · rfl

theorem foldl_add (s : Service σ) (added : List (Endpoint σ)) :
    added.foldl add s = { s with endpoints := s.endpoints ++ added } := by
  induction added generalizing s with
  | nil => rw [List.foldl_nil, List.append_nil]
  | cons e added ih =>
    rw [List.foldl_cons, ih, add, List.append_assoc]
    rfl

/-- Every report is sent to the enabled endpoints, each once and in order, and to no other, if the
service is on; it is answered with success, and the counters tell the sendings that went well from
those that did not. The channels are the configured ones that are switched on and the added
ones. -/
theorem reports_fan_out (o : Outlet σ) (c : ServiceConfig) (added : List (Endpoint σ))
    (jobs : List Job) (w : σ) :
    let es := (c.channels.filter (·.configured)).map (·.endpoint o) ++ added
    let s := added.foldl add (ofConfig o c)
    let (answers, t, v) := reportAll jobs s w
    ∃ sent : List Delivery,
      reportAll jobs s.noting (w, []) = (answers, t.noting, v, sent) ∧
      sent.map (fun d ↦ (d.number, d.notification)) =
        (if c.enabled then jobs.flatMap fun j ↦ (takers 0 es).map (·, .ofJob j) else []) ∧
      answers = jobs.map (fun _ ↦ .ok ()) ∧
      t.stats = (c.channels.countP (·.configured) + added.length,
        sent.countP (·.succeeded), sent.countP fun d ↦ !d.succeeded) := by
  intro es s
  have hs : s = { enabled := c.enabled, endpoints := es } := foldl_add _ _
  obtain ⟨sent, h₁, h₂, h₃, h₄⟩ := reportAll_noting jobs s w []
  refine ⟨sent, ?_, ?_, h₂, ?_⟩
  · rw [h₃, h₁, List.nil_append]
  · rw [h₄, hs]
  · rw [h₁, hs, stats, tally]
    simp [es, List.countP_eq_length_filter]

end Service

end JobEngine
