import Switchboard.Proofs.Service.Run

/-! What a run of a service keeps: whatever is delivered is taken in, every command that is taken in
goes to the handler and is settled once, and what is put out is what the events say. -/
namespace Switchboard

namespace Job

/-- What came of the command, until it is told. -/
def outcome? (j : Job) : Option (Envelope × Outcome (Option Value)) :=
  match j.stage with
  | .working _ outcome | .worked outcome => some (j.request, outcome)
  | _ => none

def isDone (j : Job) : Bool :=
  match j.stage with
  | .finished => true
  | _ => false

end Job

namespace Service

open scoped List

variable {σ : Type} {h : Handler σ} {s t u : Service σ} {es fs : List Event} {m : Envelope}
  {k : Nat} {j : Job} {stage : Job.Stage}

/-- The outcomes of commands that are not told yet. -/
def outcomes (s : Service σ) : List (Envelope × Outcome (Option Value)) :=
  s.jobs.filterMap Job.outcome?

/-- The commands whose jobs are not done. -/
def unsettled (s : Service σ) : List Envelope := (s.jobs.filter (!·.isDone)).map Job.request

/-- What a malformed command is answered, if an answer is wanted. -/
def refusal (route : String) (m : Envelope) : List Envelope :=
  match m.command? with
  | .error e =>
    if m.requestId.isSome then [{ m.failure e.text with source := some route }] else []
  | .ok _ => []

/-- What a command is answered that the handler was given, if an answer is wanted. -/
def reply (route : String) (m : Envelope) (outcome : Outcome (Option Value)) : List Envelope :=
  if m.requestId.isSome then [{ responseTo m outcome with source := some route }] else []

/-- What is put out when something happens. -/
def Event.output (route : String) : Event → List Envelope
  | received m => refusal route m
  | settled m outcome => reply route m outcome
  | said m => [m]
  | _ => []

/-- All that is put out in the course of a run. -/
def putOut (route : String) (es : List Event) : List Envelope := es.flatMap (Event.output route)

/-- The loop goes on, and what the service puts out is kept until it is taken. -/
structure Sound (s : Service σ) : Prop where
  loop : s.loop ≠ .stopped
  input : s.input.ended = false
  output : s.output.isOpen = true

/-- What goes in and what comes out by some events. -/
structure Balanced (s : Service σ) (es : List Event) (t : Service σ) : Prop where
  route : t.route = s.route
  input : s.input.items ++ delivered es = received es ++ t.input.items
  handled : (handled es ++ s.outcomes).Perm (settled es ++ t.outcomes)
  settled : ((settled es).map (·.1) ++ t.unsettled).Perm
    (s.unsettled ++ (received es).filter (·.isWork))
  output : s.output.items ++ putOut s.route es = taken es ++ t.output.items

theorem delivered_append (es fs : List Event) :
    delivered (es ++ fs) = delivered es ++ delivered fs := List.filterMap_append

theorem received_append (es fs : List Event) :
    received (es ++ fs) = received es ++ received fs := List.filterMap_append

theorem handled_append (es fs : List Event) :
    Service.handled (es ++ fs) = Service.handled es ++ Service.handled fs := List.filterMap_append

theorem settled_append (es fs : List Event) :
    Service.settled (es ++ fs) = Service.settled es ++ Service.settled fs := List.filterMap_append

theorem said_append (es fs : List Event) : said (es ++ fs) = said es ++ said fs :=
  List.filterMap_append

theorem taken_append (es fs : List Event) : taken (es ++ fs) = taken es ++ taken fs :=
  List.filterMap_append

theorem putOut_append (route : String) (es fs : List Event) :
    putOut route (es ++ fs) = putOut route es ++ putOut route fs := List.flatMap_append

namespace Balanced

theorem refl (s : Service σ) : Balanced s [] s where
  route := rfl
  input := by simp [delivered, received]
  handled := by simp [Service.handled, Service.settled]
  settled := by simp [Service.settled, received]
  output := by simp [putOut, taken]

theorem trans (h : Balanced s es t) (h' : Balanced t fs u) : Balanced s (es ++ fs) u where
  route := h'.route.trans h.route
  input := by
    rw [delivered_append, received_append, ← List.append_assoc, h.input, List.append_assoc,
      h'.input, List.append_assoc]
  handled := by
    rw [handled_append, settled_append]
    calc Service.handled es ++ Service.handled fs ++ s.outcomes
        ~ Service.handled fs ++ (Service.handled es ++ s.outcomes) := by
          rw [← List.append_assoc]
          exact List.perm_append_comm.append_right _
      _ ~ Service.handled fs ++ (Service.settled es ++ t.outcomes) := h.handled.append_left _
      _ ~ Service.settled es ++ (Service.handled fs ++ t.outcomes) := by
          rw [← List.append_assoc, ← List.append_assoc]
          exact List.perm_append_comm.append_right _
      _ ~ Service.settled es ++ (Service.settled fs ++ u.outcomes) := h'.handled.append_left _
      _ = Service.settled es ++ Service.settled fs ++ u.outcomes := (List.append_assoc ..).symm
  settled := by
    rw [settled_append, received_append, List.map_append, List.filter_append]
    calc (Service.settled es).map (·.1) ++ (Service.settled fs).map (·.1) ++ u.unsettled
        ~ (Service.settled es).map (·.1) ++ (t.unsettled ++ (received fs).filter (·.isWork)) := by
          rw [List.append_assoc]
          exact h'.settled.append_left _
      _ ~ s.unsettled ++ (received es).filter (·.isWork) ++ (received fs).filter (·.isWork) := by
          rw [← List.append_assoc]
          exact h.settled.append_right _
      _ = _ := List.append_assoc ..
  output := by
    rw [putOut_append, taken_append, ← List.append_assoc, h.output, List.append_assoc, ← h.route,
      h'.output, List.append_assoc]

/-- What leaves queues and jobs alone, and is no event of theirs. -/
theorem aside (hr : t.route = s.route) (hi : t.input.items = s.input.items)
    (hout : t.output.items = s.output.items) (hj : t.outcomes = s.outcomes)
    (hu : t.unsettled = s.unsettled)
    (hd : delivered fs = [] ∧ received fs = [])
    (hh : Service.handled fs = [] ∧ Service.settled fs = [])
    (ho : putOut s.route fs = [] ∧ taken fs = []) : Balanced s fs t where
  route := hr
  input := by simp [hd, hi]
  handled := by simp [hh, hj]
  settled := by simp [hh, hd, hu]
  output := by simp [ho, hout]

end Balanced

/-- A change of one job, with those before and behind it. -/
theorem jobs_setStage (hj : s.jobs[k]? = some j) (stage : Job.Stage) :
    ∃ before after, s.jobs = before ++ j :: after ∧
      (s.setStage k stage).jobs = before ++ { j with stage } :: after := by
  obtain ⟨hk, rfl⟩ := List.getElem?_eq_some_iff.1 hj
  refine ⟨s.jobs.take k, s.jobs.drop (k + 1), ?_, ?_⟩
  · rw [List.getElem_cons_drop, List.take_append_drop]
  · exact List.modify_eq_take_cons_drop hk

/-- What the loop takes in is answered at once, or it is a job's, or it is nobody's answer. -/
theorem balanced_dispatch (hs : s.Sound) (m : Envelope) :
    Sound (s.dispatch m) ∧ (s.dispatch m).route = s.route ∧
      (s.dispatch m).input = s.input ∧
      (s.dispatch m).output.items = s.output.items ++ refusal s.route m ∧
      (s.dispatch m).outcomes = s.outcomes ∧
      (s.dispatch m).unsettled = s.unsettled ++ [m].filter (·.isWork) := by
  have hnone (hc : m.isCommand = false) : refusal s.route m = [] ∧ m.isWork = false := by
    have hc := Envelope.command?_eq_none_iff.2 hc
    simp [refusal, Envelope.isWork, hc]
  rcases s.dispatch_cases m with ⟨hr, hd⟩ | ⟨route, hc, hd⟩ | ⟨hw, hd⟩ | ⟨hc, hd⟩ | ⟨e, hc, hd⟩
  · obtain ⟨hq, hw⟩ := hnone (Envelope.isCommand_of_isResponse hr)
    obtain ⟨pending, calls, hc⟩ := s.exists_complete_eq m
    rw [hd, hc, hq]
    exact ⟨⟨hs.loop, hs.input, hs.output⟩, rfl, rfl, by simp, rfl, by simp [hw, unsettled]⟩
  · rw [hd]
    exact ⟨⟨by simp, hs.input, hs.output⟩, rfl, rfl, by simp [refusal, hc], rfl,
      by simp [Envelope.isWork, hc, unsettled]⟩
  · have hm : refusal s.route m = [] := by
      unfold refusal
      split
      · simp [Envelope.isWork, *] at hw
      · rfl
    rw [hd]
    exact ⟨⟨hs.loop, hs.input, hs.output⟩, rfl, rfl, by simp [hm], by simp [outcomes, Job.outcome?],
      by simp [unsettled, Job.isDone, hw]⟩
  · obtain ⟨hq, hw⟩ := hnone (Envelope.command?_eq_none_iff.1 hc)
    rw [hd, hq]
    exact ⟨hs, rfl, rfl, by simp, rfl, by simp [hw]⟩
  · have hw : m.isWork = false := by simp [Envelope.isWork, hc]
    rw [hd]
    split
    · rw [respondWith, emit_of_open hs.output]
      exact ⟨⟨hs.loop, hs.input, hs.output⟩, rfl, rfl, by simp [refusal, *], rfl,
        by simp [hw, unsettled]⟩
    · exact ⟨hs, rfl, rfl, by simp [refusal, *], rfl, by simp [hw]⟩

theorem balanced_receive (hs : s.Sound) (ht : s.receive? = some t) :
    t.Sound ∧ Balanced s s.receptions t := by
  rcases receive_cases ht with ⟨m, rest, hl, hi, rfl⟩ | ⟨-, -, he, -⟩ | ⟨hl, rfl⟩
  · have hs' : Sound { s with input := { s.input with items := rest } } :=
      ⟨hs.loop, hs.input, hs.output⟩
    obtain ⟨hsound, hroute, hin, hout, hoc, hun⟩ := balanced_dispatch hs' m
    have hev : s.receptions = [.received m] := by simp [receptions, hl, hi]
    refine ⟨hsound, hroute, ?_, ?_, ?_, ?_⟩
    · simp [hev, hin, hi, delivered, received, Event.received?, List.filterMap_cons]
    · rw [hev, hoc]
      rfl
    · rw [hev, hun]
      rfl
    · rw [hev, hout]
      simp [putOut, Event.output, taken, List.filterMap_cons]
  · rw [hs.input] at he
    cases he
  · have hev : s.receptions = [] := by simp [receptions, hl]
    refine ⟨⟨by simp, hs.input, hs.output⟩, ?_⟩
    rw [hev]
    exact .aside rfl rfl rfl rfl rfl ⟨rfl, rfl⟩ ⟨rfl, rfl⟩ ⟨rfl, rfl⟩

theorem balanced_begin (ht : s.begin? k = some t) : Balanced s [] t := by
  obtain ⟨m, hj, rfl⟩ := begin_cases ht
  obtain ⟨before, after, hs, ht⟩ := jobs_setStage hj .begun
  refine .aside rfl rfl rfl ?_ ?_ ⟨rfl, rfl⟩ ⟨rfl, rfl⟩ ⟨rfl, rfl⟩
  · simp [outcomes, hs, ht, Job.outcome?, List.filterMap_cons]
  · simp [unsettled, hs, ht, Job.isDone]

theorem balanced_work {now : Duration} (ht : s.work? h now k = some t) :
    Balanced s (s.handlings h now k) t := by
  rcases work_cases ht with ⟨m, stage, hj, hstage, rfl⟩ | ⟨m, due, outcome, hj, rfl⟩
  · obtain ⟨before, after, hs, ht⟩ := jobs_setStage hj stage
    have ho : (⟨m, stage⟩ : Job).outcome?
        = some (m, (h.handle s.state now s.identity m).2.outcome) := by
      rcases hstage with rfl | ⟨due, rfl⟩ <;> rfl
    have hd : (⟨m, stage⟩ : Job).isDone = false := by
      rcases hstage with rfl | ⟨due, rfl⟩ <;> rfl
    have hev : s.handlings h now k
        = [.handled m (h.handle s.state now s.identity m).2.outcome] := by
      simp [handlings, hj]
    have hoc : outcomes (setStage { s with state := (h.handle s.state now s.identity m).1 } k stage)
        = before.filterMap Job.outcome? ++ (m, (h.handle s.state now s.identity m).2.outcome)
          :: after.filterMap Job.outcome? := by
      show List.filterMap _ (s.setStage k stage).jobs = _
      simp [ht, ho]
    refine ⟨rfl, ?_, ?_, ?_, ?_⟩
    · simp [hev, delivered, received, setStage, List.filterMap_cons]
    · rw [hev, hoc]
      simpa [outcomes, hs, Job.outcome?, Service.handled, Service.settled, List.filterMap_cons]
        using List.perm_middle.symm
    · have hun : unsettled (setStage
          { s with state := (h.handle s.state now s.identity m).1 } k stage) = s.unsettled := by
        show ((s.setStage k stage).jobs.filter _).map _ = _
        simp [unsettled, hs, ht, hd, show (⟨m, .begun⟩ : Job).isDone = false from rfl]
      rw [hev, hun]
      simp [Service.settled, received, List.filterMap_cons]
    · simp [hev, putOut, Event.output, taken, setStage, List.filterMap_cons]
  · obtain ⟨before, after, hs, ht⟩ := jobs_setStage hj (.worked outcome)
    have hev : s.handlings h now k = [] := by simp [handlings, hj]
    rw [hev]
    refine .aside rfl rfl rfl ?_ ?_ ⟨rfl, rfl⟩ ⟨rfl, rfl⟩ ⟨rfl, rfl⟩
    · simp [outcomes, hs, ht, Job.outcome?]
    · simp [unsettled, hs, ht, Job.isDone]

theorem balanced_answer (hs : s.Sound) (ht : s.answer? k = some t) :
    t.Sound ∧ Balanced s (s.settlements k) t := by
  obtain ⟨m, outcome, hj, rfl⟩ := answer_cases ht
  obtain ⟨before, after, hbefore, hafter⟩ := jobs_setStage hj .finished
  have hev : s.settlements k = [.settled m outcome] := by simp [settlements, hj]
  have hopen : (s.setStage k .finished).output.isOpen = true := hs.output
  have hoc : outcomes s = before.filterMap Job.outcome? ++ (m, outcome)
      :: after.filterMap Job.outcome? := by
    simp [outcomes, hbefore, Job.outcome?]
  have hun : unsettled s = (before.filter (!·.isDone)).map Job.request ++ m
      :: (after.filter (!·.isDone)).map Job.request := by
    simp [unsettled, hbefore, Job.isDone]
  rw [respondWith, emit_of_open hopen, hev]
  suffices hall : ∀ w : Service σ, w.route = s.route → w.loop = s.loop → w.input = s.input →
      w.output = { s.output with items := s.output.items ++ reply s.route m outcome } →
      w.jobs = (s.setStage k .finished).jobs → w.Sound ∧ Balanced s [.settled m outcome] w by
    split
    · exact hall _ rfl rfl rfl (by simp [reply, setStage, *]) rfl
    · exact hall _ rfl rfl rfl (by simp [reply, setStage, *]) rfl
  intro w hroute hloop hin hout hjobs
  refine ⟨⟨hloop ▸ hs.loop, hin ▸ hs.input, by rw [hout]; exact hs.output⟩, hroute, ?_, ?_, ?_, ?_⟩
  · simp [hin, delivered, received, List.filterMap_cons]
  · rw [hoc, outcomes, hjobs, hafter]
    simp [Job.outcome?, Service.handled, Service.settled, List.filterMap_cons]
  · rw [hun, unsettled, hjobs, hafter]
    simpa [Service.settled, received, Job.isDone, List.filterMap_cons] using List.perm_middle.symm
  · simp [hout, putOut, Event.output, taken, List.filterMap_cons]

theorem balanced_emit (hs : s.Sound) (m : Envelope) :
    Sound (s.emit m) ∧ Balanced s [.said m] (s.emit m) := by
  rw [emit_of_open hs.output]
  refine ⟨⟨hs.loop, hs.input, hs.output⟩, rfl, ?_, .refl _, ?_, ?_⟩
  · simp [delivered, received, List.filterMap_cons]
  · simp [Service.settled, received, unsettled, List.filterMap_cons]
  · simp [putOut, Event.output, taken, List.filterMap_cons]

theorem Progress.balanced (hs : s.Sound) (hp : Progress h s fs t) : t.Sound ∧ Balanced s fs t := by
  cases hp with
  | receive ht => exact balanced_receive hs ht
  | dispose ht =>
    obtain ⟨route, -, rfl⟩ := dispose_cases ht
    exact ⟨⟨by simp, hs.input, hs.output⟩,
      .aside rfl rfl rfl rfl rfl ⟨rfl, rfl⟩ ⟨rfl, rfl⟩ ⟨rfl, rfl⟩⟩
  | begin k ht =>
    refine ⟨?_, balanced_begin ht⟩
    obtain ⟨m, -, rfl⟩ := begin_cases ht
    exact ⟨hs.loop, hs.input, hs.output⟩
  | work now k ht =>
    refine ⟨?_, balanced_work ht⟩
    rcases work_cases ht with ⟨m, stage, -, -, rfl⟩ | ⟨m, due, outcome, -, rfl⟩ <;>
      exact ⟨hs.loop, hs.input, hs.output⟩
  | answer k ht => exact balanced_answer hs ht

theorem Step.balanced (hs : s.Sound) (hst : Step h s fs t) : t.Sound ∧ Balanced s fs t := by
  have quiet {w : Service σ} {fs : List Event} (hw : w.Sound) (hr : w.route = s.route)
      (hi : w.input = s.input) (ho : w.output = s.output) (hj : w.jobs = s.jobs)
      (he : fs = [] ∨ (∃ id, fs = [.entered id]) ∨ (∃ c, fs = [.expired c]) ∨
        ∃ c r, fs = [.returned c r]) : w.Sound ∧ Balanced s fs w := by
    refine ⟨hw, .aside hr (by rw [hi]) (by rw [ho]) (by rw [outcomes, hj]; rfl)
      (by rw [unsettled, hj]; rfl) ?_ ?_ ?_⟩ <;>
      rcases he with rfl | ⟨id, rfl⟩ | ⟨c, rfl⟩ | ⟨c, r, rfl⟩ <;> exact ⟨rfl, rfl⟩
  cases hst with
  | start ht =>
    obtain ⟨-, rfl⟩ := start_cases ht
    exact quiet ⟨by simp, hs.input, hs.output⟩ rfl rfl rfl rfl (.inl rfl)
  | deliver m ht =>
    obtain ⟨-, rfl⟩ := send_cases ht
    refine ⟨⟨hs.loop, hs.input, hs.output⟩, rfl, ?_, .refl _, ?_, ?_⟩
    · simp [delivered, received, List.filterMap_cons]
    · simp [Service.settled, received, unsettled, List.filterMap_cons]
    · simp [putOut, Event.output, taken, List.filterMap_cons]
  | progress hp => exact hp.balanced hs
  | say c route => exact balanced_emit hs _
  | enter id c route =>
    exact quiet ⟨hs.loop, hs.input, hs.output⟩ rfl rfl rfl rfl (.inr (.inl ⟨id, rfl⟩))
  | post now k ht =>
    obtain ⟨id, response, m, hc, rfl⟩ := post_cases ht
    have hev : s.postings k = [.said m] := by simp [postings, hc]
    have hw : Sound (s.setCall k (.waiting ⟨now.nanos + s.requestTimeout.nanos⟩)) :=
      ⟨hs.loop, hs.input, hs.output⟩
    obtain ⟨hsound, hb⟩ := balanced_emit hw m
    rw [hev]
    exact ⟨hsound, hb.route, hb.input, hb.handled, hb.settled, hb.output⟩
  | expire now k ht =>
    obtain ⟨id, deadline, -, -, rfl⟩ := expire_cases ht
    exact quiet ⟨hs.loop, hs.input, hs.output⟩ rfl rfl rfl rfl (.inr (.inr (.inl ⟨k, rfl⟩)))
  | «return» k ht =>
    rcases return_cases ht with ⟨id, deadline, m, -, -, rfl⟩ | ⟨id, response, -, -, rfl⟩ <;>
      exact quiet ⟨hs.loop, hs.input, hs.output⟩ rfl rfl rfl rfl (.inr (.inr (.inr ⟨k, _, rfl⟩)))
  | @take m q hq =>
    unfold Queue.take at hq
    split at hq
    · rename_i rest hi
      cases hq
      refine ⟨⟨hs.loop, hs.input, hs.output⟩, rfl, ?_, .refl _, ?_, ?_⟩
      · simp [delivered, received, List.filterMap_cons]
      · simp [Service.settled, received, unsettled, List.filterMap_cons]
      · simp [putOut, Event.output, taken, hi]
    · split at hq <;> cases hq
  | alter state token => exact quiet ⟨hs.loop, hs.input, hs.output⟩ rfl rfl rfl rfl (.inl rfl)

/-- Nothing gets lost or comes twice in the course of a run. -/
theorem Run.balanced (hs : s.Sound) (hr : Run h s es t) : t.Sound ∧ Balanced s es t := by
  induction hr with
  | refl => exact ⟨hs, .refl s⟩
  | tail _ hst ih =>
    obtain ⟨hst', hb⟩ := hst.balanced ih.1
    exact ⟨hst', ih.2.trans hb⟩

end Service

end Switchboard
