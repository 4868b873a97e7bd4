import Mathlib
import Switchboard.Service

/-! Runs of a service: its loop, the jobs that the loop starts and the calls that are made through
the service take their steps in any order, among deliveries and whoever takes what is put out. -/
namespace Switchboard

namespace Envelope

/-- A command that is well-formed and no disposal: it is for the handler. -/
def isWork (m : Envelope) : Bool :=
  match m.command? with
  | .ok (some (.dispose _)) => false
  | .ok (some _) => true
  | _ => false

def isDisposal (m : Envelope) : Bool :=
  match m.command? with
  | .ok (some (.dispose _)) => true
  | _ => false

def isMalformed (m : Envelope) : Bool :=
  match m.command? with
  | .ok _ => false
  | .error _ => true

theorem command?_eq_none_iff {m : Envelope} : m.command? = .ok none ↔ m.isCommand = false := by
  unfold command? isCommand
  cases m.command with
  | none => simp
  | some name =>
    by_cases hn : name = ""
    · simp [hn]
    · simp only [hn, if_false]
      cases Command.ofParts name m.data <;> simp [Except.map, hn]

theorem isCommand_of_isResponse {m : Envelope} (h : m.isResponse = true) : m.isCommand = false := by
  unfold isResponse at h
  simpa using (Bool.and_eq_true_iff.1 h).1

/-- Every command is for the handler, a disposal, or malformed. -/
theorem isCommand_eq (m : Envelope) :
    m.isCommand = (m.isWork || m.isDisposal || m.isMalformed) := by
  have hnone := @command?_eq_none_iff m
  unfold isWork isDisposal isMalformed
  rcases hc : m.command? with e | ⟨_ | c⟩
  · simpa [hc] using hnone
  · simpa [hc] using hnone
  · cases c <;> simpa [hc] using hnone

theorem isDisposal_eq (m : Envelope) :
    (m.isCommand && !m.isDisposal) = (m.isWork || m.isMalformed) := by
  rw [isCommand_eq]
  unfold isWork isDisposal isMalformed
  rcases m.command? with e | ⟨_ | c⟩
  · rfl
  · rfl
  · cases c <;> rfl

theorem isMalformed_of_isWork {m : Envelope} (h : m.isWork = true) : m.isMalformed = false := by
  unfold isWork at h
  unfold isMalformed
  split at h <;> simp_all

end Envelope

namespace Service

variable {σ : Type} {h : Handler σ} {s t u : Service σ} {m : Envelope} {k : Nat} {now : Duration}

/-- Something that happens at a service. -/
inductive Event where
  | delivered (m : Envelope)
  /-- The loop has taken an envelope in. -/
  | received (m : Envelope)
  /-- The handler was given a command, and this is what came of it. -/
  | handled (m : Envelope) (outcome : Outcome (Option Value))
  /-- What came of a command is told, if it is asked for. -/
  | settled (m : Envelope) (outcome : Outcome (Option Value))
  /-- The service sends something of its own. -/
  | said (m : Envelope)
  | entered (id : String)
  | expired (call : Nat)
  | returned (call : Nat) (result : Except Error Envelope)
  /-- Somebody takes an envelope that was put out. -/
  | taken (m : Envelope)

/-- What the loop takes in by its next step. -/
def receptions (s : Service σ) : List Event :=
  match s.loop, s.input.items with
  | .running, m :: _ => [.received m]
  | _, _ => []

/-- What comes of giving a command to the handler, if that is the next step of its job. -/
def handlings (h : Handler σ) (now : Duration) (s : Service σ) (k : Nat) : List Event :=
  match s.jobs[k]? with
  | some ⟨m, .begun⟩ => [.handled m (h.handle s.state now s.identity m).2.outcome]
  | _ => []

def settlements (s : Service σ) (k : Nat) : List Event :=
  match s.jobs[k]? with
  | some ⟨m, .worked outcome⟩ => [.settled m outcome]
  | _ => []

/-- What a call sends by its next step. -/
def postings (s : Service σ) (k : Nat) : List Event :=
  match s.calls[k]? with
  | some { stage := .entered m, .. } => [.said m]
  | _ => []

/-- A step of the loop, or of one of its jobs. -/
inductive Progress (h : Handler σ) (s : Service σ) : List Event → Service σ → Prop
  | receive {t : Service σ} (ht : s.receive? = some t) : Progress h s s.receptions t
  | dispose {t : Service σ} (ht : s.dispose? h = some t) : Progress h s [] t
  | begin {t : Service σ} (k : Nat) (ht : s.begin? k = some t) : Progress h s [] t
  | work {t : Service σ} (now : Duration) (k : Nat) (ht : s.work? h now k = some t) :
      Progress h s (s.handlings h now k) t
  | answer {t : Service σ} (k : Nat) (ht : s.answer? k = some t) : Progress h s (s.settlements k) t

/-- A step of anybody at a service. What the handler keeps may also change by itself, and the
service may be given another token. -/
inductive Step (h : Handler σ) (s : Service σ) : List Event → Service σ → Prop
  | start {t : Service σ} (ht : s.start = .ok t) : Step h s [] t
  | deliver {t : Service σ} (m : Envelope) (ht : s.send m = .ok t) : Step h s [.delivered m] t
  | progress {es : List Event} {t : Service σ} (hp : Progress h s es t) : Step h s es t
  | say (c : Command) (route : Option String) :
      Step h s [.said (s.outgoing c route)] (s.sendCommand c route)
  | enter (id : String) (c : Command) (route : Option String) :
      Step h s [.entered id] (s.enter id c route)
  | post {t : Service σ} (now : Duration) (k : Nat) (ht : s.post? now k = some t) :
      Step h s (s.postings k) t
  | expire {t : Service σ} (now : Duration) (k : Nat) (ht : s.expire? now k = some t) :
      Step h s [.expired k] t
  | return {t : Service σ} {result : Except Error Envelope} (k : Nat)
      (ht : s.return? k = some (result, t)) : Step h s [.returned k result] t
  | take {m : Envelope} {q : Queue} (hq : s.output.take = .envelope m q) :
      Step h s [.taken m] { s with output := q }
  | alter (state : σ) (token : Option String) : Step h s [] { s with state, authToken := token }

/-- Steps one after the other, with all that happened. -/
inductive Run (h : Handler σ) (s : Service σ) : List Event → Service σ → Prop
  | refl : Run h s [] s
  | tail {es fs : List Event} {t u : Service σ} (hr : Run h s es t) (hs : Step h t fs u) :
      Run h s (es ++ fs) u

theorem Run.append {es fs : List Event} (hr : Run h s es t) (hr' : Run h t fs u) :
    Run h s (es ++ fs) u := by
  induction hr' with
  | refl => simpa using hr
  | tail _ hs ih => exact List.append_assoc es _ _ ▸ ih.tail hs

namespace Event

@[simp] def delivered? : Event → Option Envelope
  | delivered m => some m
  | _ => none

@[simp] def received? : Event → Option Envelope
  | received m => some m
  | _ => none

@[simp] def handled? : Event → Option (Envelope × Outcome (Option Value))
  | handled m outcome => some (m, outcome)
  | _ => none

@[simp] def settled? : Event → Option (Envelope × Outcome (Option Value))
  | settled m outcome => some (m, outcome)
  | _ => none

@[simp] def said? : Event → Option Envelope
  | said m => some m
  | _ => none

@[simp] def taken? : Event → Option Envelope
  | taken m => some m
  | _ => none

@[simp] def entered? : Event → Option String
  | entered id => some id
  | _ => none

/-- What a call returns. -/
@[simp] def returned? (k : Nat) : Event → Option (Except Error Envelope)
  | returned j result => if j = k then some result else none
  | _ => none

end Event

/-- What was delivered in the course of a run. -/
def delivered (es : List Event) : List Envelope := es.filterMap Event.delivered?

/-- What the loop has taken in. -/
def received (es : List Event) : List Envelope := es.filterMap Event.received?

/-- The commands that the handler was given, each with what came of it. -/
def handled (es : List Event) : List (Envelope × Outcome (Option Value)) :=
  es.filterMap Event.handled?

def settled (es : List Event) : List (Envelope × Outcome (Option Value)) :=
  es.filterMap Event.settled?

/-- What the service has sent of its own. -/
def said (es : List Event) : List Envelope := es.filterMap Event.said?

/-- What was taken of all that the service has put out. -/
def taken (es : List Event) : List Envelope := es.filterMap Event.taken?

/-- The ids of the calls that were begun. -/
def entered (es : List Event) : List String := es.filterMap Event.entered?

/-- All that a call has returned. -/
def returns (k : Nat) (es : List Event) : List (Except Error Envelope) :=
  es.filterMap (Event.returned? k)

theorem emit_of_open (ho : s.output.isOpen = true) (m : Envelope) :
    s.emit m = { s with output := { s.output with items := s.output.items ++ [m] } } := by
  simp [emit, Queue.push?, ho]

theorem exists_emit_eq (s : Service σ) (m : Envelope) : ∃ q, s.emit m = { s with output := q } := by
  unfold emit
  split <;> exact ⟨_, rfl⟩

theorem exists_complete_eq (s : Service σ) (m : Envelope) :
    ∃ pending calls, s.complete m = { s with pending, calls } := by
  unfold complete
  split
  · exact ⟨_, _, rfl⟩
  · split <;> exact ⟨_, _, rfl⟩

/-- What the loop does by its next step, if it is not stopped. -/
theorem receive_cases (ht : s.receive? = some t) :
    (∃ m rest, s.loop = .running ∧ s.input.items = m :: rest ∧
      t = dispatch { s with input := { s.input with items := rest } } m) ∨
    (s.loop = .running ∧ s.input.items = [] ∧ s.input.ended = true ∧ t = s.stop) ∨
    (s.loop = .disposed ∧ t = { s with loop := .running }) := by
  unfold receive? at ht
  split at ht
  · rename_i hl
    cases hi : s.input.items with
    | nil =>
      cases he : s.input.ended with
      | true =>
        simp only [Queue.take, hi, he, if_true, Option.some.injEq] at ht
        exact .inr (.inl ⟨hl, rfl, rfl, ht.symm⟩)
      | false => simp [Queue.take, hi, he] at ht
    | cons m rest =>
      simp only [Queue.take, hi, Option.some.injEq] at ht
      exact .inl ⟨m, rest, hl, rfl, ht.symm⟩
  · cases ht
    exact .inr (.inr ⟨‹_›, rfl⟩)
  · cases ht

/-- What becomes of an envelope that the loop takes in. -/
theorem dispatch_cases (s : Service σ) (m : Envelope) :
    (m.isResponse = true ∧ s.dispatch m = s.complete m) ∨
    (∃ route, m.command? = .ok (some (.dispose route)) ∧
      s.dispatch m = { s with loop := .disposing route }) ∨
    (m.isWork = true ∧ s.dispatch m = { s with jobs := s.jobs ++ [{ request := m }] }) ∨
    (m.command? = .ok none ∧ s.dispatch m = s) ∨
    (∃ e, m.command? = .error e ∧
      s.dispatch m = if m.requestId.isSome then s.respondWith (m.failure e.text) else s) := by
  unfold dispatch
  by_cases hr : m.isResponse = true
  · exact .inl ⟨hr, by rw [if_pos hr]⟩
  rw [if_neg hr]
  right
  cases hc : m.command? with
  | error e => exact .inr (.inr (.inr ⟨e, rfl, rfl⟩))
  | ok c =>
    match c with
    | none => exact .inr (.inr (.inl ⟨rfl, rfl⟩))
    | some (.dispose route) => exact .inl ⟨route, rfl, rfl⟩
    | some (.authenticate _) => exact .inr (.inl ⟨by simp [Envelope.isWork, hc], rfl⟩)
    | some .routeAnnounce => exact .inr (.inl ⟨by simp [Envelope.isWork, hc], rfl⟩)
    | some .routeUnannounce => exact .inr (.inl ⟨by simp [Envelope.isWork, hc], rfl⟩)
    | some (.other _ _) => exact .inr (.inl ⟨by simp [Envelope.isWork, hc], rfl⟩)

theorem begin_cases (ht : s.begin? k = some t) :
    ∃ m, s.jobs[k]? = some ⟨m, .delivered⟩ ∧ t = s.setStage k .begun := by
  unfold begin? at ht
  split at ht
  · cases ht
    exact ⟨_, ‹_›, rfl⟩
  · cases ht

/-- The handler is given a command, or is done with one. -/
theorem work_cases (ht : s.work? h now k = some t) :
    (∃ m stage, s.jobs[k]? = some ⟨m, .begun⟩ ∧
      (stage = .worked (h.handle s.state now s.identity m).2.outcome ∨
        ∃ due, stage = .working due (h.handle s.state now s.identity m).2.outcome) ∧
      t = setStage { s with state := (h.handle s.state now s.identity m).1 } k stage) ∨
    (∃ m due outcome, s.jobs[k]? = some ⟨m, .working due outcome⟩ ∧
      t = s.setStage k (.worked outcome)) := by
  unfold work? at ht
  split at ht
  · rename_i m hj
    cases ht
    refine .inl ⟨m, _, hj, ?_, rfl⟩
    split
    · exact .inl rfl
    · exact .inr ⟨_, rfl⟩
  · split at ht <;> cases ht
    exact .inr ⟨_, _, _, ‹_›, rfl⟩
  · cases ht

theorem answer_cases (ht : s.answer? k = some t) :
    ∃ m outcome, s.jobs[k]? = some ⟨m, .worked outcome⟩ ∧
      t = if m.requestId.isSome then (s.setStage k .finished).respondWith (responseTo m outcome)
        else s.setStage k .finished := by
  unfold answer? at ht
  split at ht
  · cases ht
    exact ⟨_, _, ‹_›, rfl⟩
  · cases ht

theorem post_cases (ht : s.post? now k = some t) :
    ∃ id response m, s.calls[k]? = some ⟨id, .entered m, response⟩ ∧
      t = (s.setCall k (.waiting ⟨now.nanos + s.requestTimeout.nanos⟩)).emit m := by
  unfold post? at ht
  split at ht
  · cases ht
    exact ⟨_, _, _, ‹_›, rfl⟩
  · cases ht

theorem expire_cases (ht : s.expire? now k = some t) :
    ∃ id deadline, s.calls[k]? = some ⟨id, .waiting deadline, none⟩ ∧
      deadline.nanos ≤ now.nanos ∧ t = s.setCall k .expired := by
  unfold expire? at ht
  split at ht
  · split at ht <;> cases ht
    exact ⟨_, _, ‹_›, ‹_›, rfl⟩
  · cases ht

/-- A call returns a response that has come, or the news that none came in time. -/
theorem return_cases {result : Except Error Envelope} (ht : s.return? k = some (result, t)) :
    (∃ id deadline m, s.calls[k]? = some ⟨id, .waiting deadline, some m⟩ ∧ result = resultOf m ∧
      t = s.setCall k .returned) ∨
    (∃ id response, s.calls[k]? = some ⟨id, .expired, response⟩ ∧
      result = .error (.timeout s.requestTimeout) ∧
      t = setCall { s with pending := s.pending.erase id } k .returned) := by
  unfold return? at ht
  split at ht
  · cases ht
    exact .inl ⟨_, _, _, ‹_›, rfl, rfl⟩
  · cases ht
    exact .inr ⟨_, _, ‹_›, rfl, rfl⟩
  · cases ht

theorem send_cases (ht : s.send m = .ok t) :
    s.input.isOpen = true ∧
      t = { s with input := { s.input with items := s.input.items ++ [m] } } := by
  unfold send Queue.push? at ht
  by_cases ho : s.input.isOpen = true
  · rw [if_pos ho] at ht
    cases ht
    exact ⟨ho, rfl⟩
  · simp [ho] at ht

theorem start_cases (ht : s.start = .ok t) :
    s.loop = .unused ∧ t = { s with loop := .running } := by
  unfold start at ht
  split at ht
  · cases ht
    exact ⟨‹_›, rfl⟩
  · cases ht

theorem dispose_cases (ht : s.dispose? h = some t) :
    ∃ route, s.loop = .disposing route ∧
      t = { s with state := h.dispose s.state route, loop := .disposed } := by
  unfold dispose? at ht
  split at ht
  · cases ht
    exact ⟨_, ‹_›, rfl⟩
  · cases ht

end Service

end Switchboard
