import Switchboard.Proofs.Service.Balance

/-! A service comes to rest: its loop and its jobs have only so much to do. -/
namespace Switchboard

/-- The steps that a job still takes at most. -/
def Job.remaining (j : Job) : Nat :=
  match j.stage with
  | .delivered => 4
  | .begun => 3
  | .working .. => 2
  | .worked _ => 1
  | .finished => 0

theorem Job.isDone_iff (j : Job) : j.isDone = true ↔ j.stage = .finished := by
  unfold isDone
  split <;> simp_all

/-- The steps until the loop takes envelopes in again. -/
def Loop.remaining : Loop → Nat
  | .disposing _ => 2
  | .disposed => 1
  | _ => 0

namespace Service

variable {σ : Type} {h : Handler σ} {s t u : Service σ} {es fs : List Event} {m : Envelope}
  {k : Nat} {j : Job} {stage : Job.Stage}

/-- A bound of the steps that the loop and the jobs still take; an envelope that is taken in means
four of them at most. -/
def remaining (s : Service σ) : Nat :=
  5 * s.input.items.length + s.loop.remaining + (s.jobs.map Job.remaining).sum

/-- The same bound with weights: `i` is that of an envelope to take in, and `d` that of one that is
put out, or will be by a job. -/
def weight (i : Envelope → Nat) (d : Nat) (s : Service σ) : Nat :=
  (s.input.items.map i).sum + s.loop.remaining
    + (s.jobs.map fun j => j.remaining + if j.isDone then 0 else d).sum + d * s.output.items.length

theorem remaining_eq_weight (s : Service σ) : s.remaining = s.weight (fun _ => 5) 0 := by
  simp [remaining, weight, Nat.mul_comm]

/-- There is nothing to take in, and all jobs are done. -/
structure Clear (s : Service σ) : Prop where
  input : s.input.items = []
  jobs : ∀ j ∈ s.jobs, j.isDone = true

/-- The loop waits, and nothing else is left to do. -/
structure Idle (s : Service σ) : Prop extends Clear s where
  loop : s.loop = .running

instance (s : Service σ) : Decidable s.Idle :=
  decidable_of_iff (s.loop = .running ∧ s.input.items = [] ∧ ∀ j ∈ s.jobs, j.isDone = true)
    ⟨fun ⟨hl, hi, hj⟩ => ⟨⟨hi, hj⟩, hl⟩, fun hs => ⟨hs.loop, hs.input, hs.jobs⟩⟩

theorem Clear.unsettled (hs : s.Clear) : s.unsettled = [] := by
  suffices s.jobs.filter (!·.isDone) = [] by simp [Service.unsettled, this]
  refine List.filter_eq_nil_iff.2 fun j hj => ?_
  simp [hs.jobs j hj]

theorem Clear.outcomes (hs : s.Clear) : s.outcomes = [] := by
  refine List.filterMap_eq_nil_iff.2 fun j hj => ?_
  simp [Job.outcome?, j.isDone_iff.1 (hs.jobs j hj)]

section Weight

variable {i : Envelope → Nat} {d : Nat}

theorem weight_setStage (i : Envelope → Nat) (d : Nat) (hj : s.jobs[k]? = some ⟨m, stage⟩)
    (stage' : Job.Stage) :
    (s.setStage k stage').weight i d
        + ((⟨m, stage⟩ : Job).remaining + if (⟨m, stage⟩ : Job).isDone then 0 else d)
      = s.weight i d
        + ((⟨m, stage'⟩ : Job).remaining + if (⟨m, stage'⟩ : Job).isDone then 0 else d) := by
  obtain ⟨before, after, hs, ht⟩ := jobs_setStage hj stage'
  simp only [weight, hs, ht, List.map_append, List.map_cons, List.sum_append, List.sum_cons]
  simp only [setStage]
  omega

theorem weight_emit (ho : s.output.isOpen = true) (m : Envelope) :
    (s.emit m).weight i d = s.weight i d + d := by
  rw [emit_of_open ho]
  simp only [weight, List.length_append, List.length_singleton, Nat.mul_add, Nat.mul_one]
  omega

end Weight

theorem dispatch_loop (s : Service σ) (m : Envelope) :
    (s.dispatch m).loop = s.loop ∨ ∃ route, (s.dispatch m).loop = .disposing route := by
  rcases s.dispatch_cases m with ⟨-, hd⟩ | ⟨route, -, hd⟩ | ⟨-, hd⟩ | ⟨-, hd⟩ | ⟨e, -, hd⟩
  · obtain ⟨pending, calls, hc⟩ := s.exists_complete_eq m
    exact .inl (by rw [hd, hc])
  · exact .inr ⟨route, by rw [hd]⟩
  · exact .inl (by rw [hd])
  · exact .inl (by rw [hd])
  · left
    rw [hd]
    split
    · obtain ⟨q, he⟩ := s.exists_emit_eq { m.failure e.text with source := some s.route }
      rw [respondWith, he]
    · rfl

/-- The loop gives a job what is for the handler, and otherwise leaves the jobs alone. -/
theorem dispatch_jobs (s : Service σ) (m : Envelope) :
    (s.dispatch m).jobs = s.jobs ++ ([m].filter (·.isWork)).map fun m => { request := m } := by
  have hnone (hc : m.command? = .ok none) : m.isWork = false := by simp [Envelope.isWork, hc]
  rcases s.dispatch_cases m with ⟨hr, hd⟩ | ⟨route, hc, hd⟩ | ⟨hw, hd⟩ | ⟨hc, hd⟩ | ⟨e, hc, hd⟩
  · obtain ⟨pending, calls, hcomplete⟩ := s.exists_complete_eq m
    have hw := hnone (Envelope.command?_eq_none_iff.2 (Envelope.isCommand_of_isResponse hr))
    simp [hd, hcomplete, hw]
  · simp [hd, Envelope.isWork, hc]
  · simp [hd, hw]
  · simp [hd, hnone hc]
  · rw [hd]
    split
    · obtain ⟨q, he⟩ := s.exists_emit_eq { m.failure e.text with source := some s.route }
      simp [respondWith, he, Envelope.isWork, hc]
    · simp [Envelope.isWork, hc]

section Weight

variable {i : Envelope → Nat} {d : Nat}

/-- What is taken in leads to no more than it counts for, if a command counts for its job and its
answer. -/
theorem weight_dispatch (hi : ∀ m, 0 < i m) (hc : ∀ m, m.isCommand = true → 5 + d ≤ i m)
    (hs : s.Sound) (hl : s.loop = .running) (m : Envelope) :
    (s.dispatch m).weight i d + 1 ≤ s.weight i d + i m := by
  have hpos := hi m
  have hcommand := hc m
  rcases s.dispatch_cases m with ⟨-, hd⟩ | ⟨route, hm, hd⟩ | ⟨hw, hd⟩ | ⟨-, hd⟩ | ⟨e, hm, hd⟩
  · obtain ⟨pending, calls, hcomplete⟩ := s.exists_complete_eq m
    rw [hd, hcomplete]
    simp only [weight]
    omega
  · have := hcommand (by simp [m.isCommand_eq, Envelope.isDisposal, hm])
    rw [hd]
    simp only [weight, hl, Loop.remaining]
    omega
  · have := hcommand (by simp [m.isCommand_eq, hw])
    rw [hd]
    simp only [weight, List.map_append, List.sum_append, List.map_cons, List.map_nil,
      List.sum_cons, List.sum_nil, Job.isDone, Job.remaining, Bool.false_eq_true, if_false]
    omega
  · rw [hd]
    omega
  · have := hcommand (by simp [m.isCommand_eq, Envelope.isMalformed, hm])
    rw [hd]
    split
    · rw [respondWith, weight_emit hs.output]
      omega
    · omega

/-- Each step of the loop and of the jobs leaves them less to do. -/
theorem Progress.weight_lt (hi : ∀ m, 0 < i m) (hc : ∀ m, m.isCommand = true → 5 + d ≤ i m)
    (hs : s.Sound) (hp : Progress h s es t) : t.weight i d < s.weight i d := by
  cases hp with
  | receive ht =>
    rcases receive_cases ht with ⟨m, rest, hl, hitems, rfl⟩ | ⟨-, -, he, -⟩ | ⟨hl, rfl⟩
    · have hd := weight_dispatch (s := { s with input := { s.input with items := rest } }) hi hc
        ⟨hs.loop, hs.input, hs.output⟩ hl m
      have : s.weight i d
          = weight i d { s with input := { s.input with items := rest } } + i m := by
        simp only [weight, hitems, List.map_cons, List.sum_cons]
        omega
      omega
    · rw [hs.input] at he
      cases he
    · simp [weight, hl, Loop.remaining]
  | dispose ht =>
    obtain ⟨route, hl, rfl⟩ := dispose_cases ht
    simp [weight, hl, Loop.remaining]
  | begin k ht =>
    obtain ⟨m, hj, rfl⟩ := begin_cases ht
    have := weight_setStage i d hj .begun
    simp only [Job.isDone, Job.remaining, Bool.false_eq_true, if_false] at this
    omega
  | work now k ht =>
    rcases work_cases ht with ⟨m, stage, hj, hstage, rfl⟩ | ⟨m, due, outcome, hj, rfl⟩
    · have := weight_setStage i d hj stage
      have hlt : (⟨m, stage⟩ : Job).remaining < (⟨m, .begun⟩ : Job).remaining ∧
          (⟨m, stage⟩ : Job).isDone = (⟨m, .begun⟩ : Job).isDone := by
        rcases hstage with rfl | ⟨due, rfl⟩ <;> simp [Job.remaining, Job.isDone]
      rw [hlt.2] at this
      show (s.setStage k stage).weight i d < _
      omega
    · have := weight_setStage i d hj (.worked outcome)
      simp only [Job.isDone, Job.remaining, Bool.false_eq_true, if_false] at this
      omega
  | answer k ht =>
    obtain ⟨m, outcome, hj, rfl⟩ := answer_cases ht
    have := weight_setStage i d hj .finished
    simp only [Job.isDone, Job.remaining, Bool.false_eq_true, if_false, if_true] at this
    split
    · rw [respondWith, weight_emit (by exact hs.output)]
      omega
    · omega

end Weight

theorem Progress.remaining_lt (hs : s.Sound) (hp : Progress h s es t) :
    t.remaining < s.remaining := by
  rw [remaining_eq_weight, remaining_eq_weight]
  exact hp.weight_lt (fun _ => by decide) (fun _ _ => by decide) hs

theorem Progress.delivered (hp : Progress h s es t) : delivered es = [] := by
  cases hp with
  | receive =>
    unfold receptions
    split <;> rfl
  | work =>
    unfold handlings
    split <;> rfl
  | answer =>
    unfold settlements
    split <;> rfl
  | dispose | begin => rfl

/-- What the loop and the jobs do is no command of the service, and nobody takes anything. -/
theorem Progress.silent (hp : Progress h s es t) : said es = [] ∧ taken es = [] := by
  cases hp with
  | receive =>
    unfold receptions
    split <;> exact ⟨rfl, rfl⟩
  | work =>
    unfold handlings
    split <;> exact ⟨rfl, rfl⟩
  | answer =>
    unfold settlements
    split <;> exact ⟨rfl, rfl⟩
  | dispose | begin => exact ⟨rfl, rfl⟩

theorem emit_ended (s : Service σ) (m : Envelope) :
    (s.emit m).output.ended = s.output.ended := by
  unfold emit Queue.push?
  split
  · rename_i q hq
    split at hq <;> cases hq
    rfl
  · rfl

theorem dispatch_ended (s : Service σ) (m : Envelope) :
    (s.dispatch m).output.ended = s.output.ended := by
  rcases s.dispatch_cases m with ⟨-, hd⟩ | ⟨route, -, hd⟩ | ⟨-, hd⟩ | ⟨-, hd⟩ | ⟨e, -, hd⟩
  · obtain ⟨pending, calls, hc⟩ := s.exists_complete_eq m
    rw [hd, hc]
  · rw [hd]
  · rw [hd]
  · rw [hd]
  · rw [hd]
    split
    · exact emit_ended s _
    · rfl

/-- The loop and the jobs shut neither queue. -/
theorem Progress.channels (hs : s.Sound) (hp : Progress h s es t) :
    t.input.isOpen = s.input.isOpen ∧ t.output.ended = s.output.ended := by
  cases hp with
  | receive ht =>
    rcases receive_cases ht with ⟨m, rest, -, -, rfl⟩ | ⟨-, -, he, -⟩ | ⟨-, rfl⟩
    · have hs' : Sound { s with input := { s.input with items := rest } } :=
        ⟨hs.loop, hs.input, hs.output⟩
      refine ⟨?_, dispatch_ended _ m⟩
      rw [(balanced_dispatch hs' m).2.2.1]
    · rw [hs.input] at he
      cases he
    · exact ⟨rfl, rfl⟩
  | dispose ht =>
    obtain ⟨route, -, rfl⟩ := dispose_cases ht
    exact ⟨rfl, rfl⟩
  | begin k ht =>
    obtain ⟨m, -, rfl⟩ := begin_cases ht
    exact ⟨rfl, rfl⟩
  | work now k ht =>
    rcases work_cases ht with ⟨m, stage, -, -, rfl⟩ | ⟨m, due, outcome, -, rfl⟩ <;>
      exact ⟨rfl, rfl⟩
  | answer k ht =>
    obtain ⟨m, outcome, -, rfl⟩ := answer_cases ht
    split
    · refine ⟨?_, emit_ended _ _⟩
      rw [respondWith, emit_of_open (by exact hs.output)]
      rfl
    · exact ⟨rfl, rfl⟩

theorem Progress.loop_ne (hs : s.Sound) (hp : Progress h s es t) (hu : s.loop ≠ .unused) :
    t.loop ≠ .unused := by
  cases hp with
  | receive ht =>
    rcases receive_cases ht with ⟨m, rest, hl, -, rfl⟩ | ⟨-, -, he, -⟩ | ⟨-, rfl⟩
    · rcases dispatch_loop { s with input := { s.input with items := rest } } m with
        hd | ⟨route, hd⟩
      · rw [hd]
        exact hu
      · simp [hd]
    · rw [hs.input] at he
      cases he
    · simp
  | dispose ht =>
    obtain ⟨route, -, rfl⟩ := dispose_cases ht
    simp
  | begin k ht =>
    obtain ⟨m, -, rfl⟩ := begin_cases ht
    exact hu
  | work now k ht =>
    rcases work_cases ht with ⟨m, stage, -, -, rfl⟩ | ⟨m, due, outcome, -, rfl⟩ <;> exact hu
  | answer k ht =>
    obtain ⟨m, outcome, hj, rfl⟩ := answer_cases ht
    split
    · rwa [respondWith, emit_of_open (by exact hs.output)]
    · exact hu

theorem Step.loop_ne (hs : s.Sound) (hst : Step h s es t) (hu : s.loop ≠ .unused) :
    t.loop ≠ .unused := by
  cases hst with
  | start ht =>
    obtain ⟨-, rfl⟩ := start_cases ht
    simp
  | deliver m ht =>
    obtain ⟨-, rfl⟩ := send_cases ht
    exact hu
  | progress hp => exact hp.loop_ne hs hu
  | say c route =>
    obtain ⟨q, he⟩ := s.exists_emit_eq (s.outgoing c route)
    rwa [sendCommand, he]
  | post now k ht =>
    obtain ⟨id, response, m, -, rfl⟩ := post_cases ht
    obtain ⟨q, he⟩ := (s.setCall k (.waiting ⟨now.nanos + s.requestTimeout.nanos⟩)).exists_emit_eq m
    rwa [he]
  | expire now k ht =>
    obtain ⟨id, deadline, -, -, rfl⟩ := expire_cases ht
    exact hu
  | «return» k ht =>
    rcases return_cases ht with ⟨id, deadline, m, -, -, rfl⟩ | ⟨id, response, -, -, rfl⟩ <;>
      exact hu
  | enter | take | alter => exact hu

/-- Once the loop was started it is never unused again. -/
theorem Run.loop_ne (hs : s.Sound) (hr : Run h s es t) (hu : s.loop ≠ .unused) :
    t.loop ≠ .unused := by
  induction hr with
  | refl => exact hu
  | tail hr hst ih => exact hst.loop_ne (hr.balanced hs).1 ih

/-- As long as the service is not idle, its loop or a job can take a step, at some time. -/
theorem exists_progress (hs : s.Sound) (hu : s.loop ≠ .unused) (hi : ¬ s.Idle) :
    ∃ es t, Progress h s es t := by
  cases hl : s.loop with
  | unused => exact absurd hl hu
  | stopped => exact absurd hl hs.loop
  | disposing route => exact ⟨_, _, .dispose (by rw [dispose?, hl])⟩
  | disposed => exact ⟨_, _, .receive (by rw [receive?, hl])⟩
  | running =>
    cases hitems : s.input.items with
    | cons m rest => exact ⟨_, _, .receive (by simp only [receive?, hl, Queue.take, hitems]; rfl)⟩
    | nil =>
      obtain ⟨j, hj, hstage⟩ : ∃ j ∈ s.jobs, ¬ j.isDone = true := by
        by_contra hall
        exact hi ⟨⟨hitems, by simpa using hall⟩, hl⟩
      obtain ⟨k, hk⟩ := List.mem_iff_getElem?.1 hj
      obtain ⟨m, stage⟩ := j
      cases stage with
      | delivered => exact ⟨_, _, .begin k (by rw [begin?, hk])⟩
      | begun => exact ⟨_, _, .work ⟨0⟩ k (by rw [work?, hk])⟩
      | working due outcome =>
        exact ⟨_, _, .work due k (by rw [work?, hk]; exact if_pos (Nat.le_refl _))⟩
      | worked outcome => exact ⟨_, _, .answer k (by rw [answer?, hk])⟩
      | finished => exact absurd rfl hstage

/-- A service is idle when neither its loop nor a job can take a step. -/
theorem idle_iff (hs : s.Sound) (hu : s.loop ≠ .unused) :
    s.Idle ↔ ∀ es t, ¬ Progress h s es t := by
  refine ⟨fun hi es t hp => ?_, fun hno => ?_⟩
  · have hz : s.remaining = 0 := by
      have : (s.jobs.map Job.remaining).sum = 0 := by
        rw [List.sum_eq_zero_iff]
        simpa using fun j hj => by simp [Job.remaining, j.isDone_iff.1 (hi.jobs j hj)]
      simp [remaining, hi.loop, hi.input, Loop.remaining, this]
    exact absurd (hp.remaining_lt hs) (by omega)
  · by_contra hi
    obtain ⟨es, t, hp⟩ := exists_progress (h := h) hs hu hi
    exact hno es t hp

/-- Whatever was delivered, the service comes to rest. -/
theorem exists_run_idle (hs : s.Sound) (hu : s.loop ≠ .unused) :
    ∃ es t, Run h s es t ∧ delivered es = [] ∧ t.Idle := by
  induction hn : s.remaining using Nat.strong_induction_on generalizing s with
  | _ n ih =>
    by_cases hi : s.Idle
    · exact ⟨[], s, .refl, rfl, hi⟩
    · obtain ⟨es, t, hp⟩ := exists_progress (h := h) hs hu hi
      obtain ⟨fs, u, hr, hd, hidle⟩ :=
        ih _ (hn ▸ hp.remaining_lt hs) (hp.balanced hs).1 (hp.loop_ne hs hu) rfl
      exact ⟨es ++ fs, u, Run.append (.tail .refl (.progress hp)) hr,
        by rw [delivered_append, hp.delivered, hd]; rfl, hidle⟩

end Service

end Switchboard
