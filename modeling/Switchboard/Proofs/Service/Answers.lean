import Switchboard.Proofs.Service.Play
import Switchboard.Proofs.Service.Rest

/-! Requests are answered once each, and nothing else is answered. -/
namespace Switchboard

namespace Envelope

/-- Whether an answer to this is waited for. -/
def isRequest (m : Envelope) : Bool := m.requestId.isSome && m.isCommand && !m.isDisposal

theorem isRequest_eq (m : Envelope) :
    m.isRequest = (m.requestId.isSome && (m.isWork || m.isMalformed)) := by
  rw [isRequest, Bool.and_assoc, isDisposal_eq]

end Envelope

namespace Service

open scoped List

/-- A request and what the handler made of it, unless it was malformed. -/
abbrev Verdict := Envelope × Option (Outcome (Option Value))

/-- What answers a request in the name of a route. -/
structure Answers (own : String) (v : Verdict) (a : Envelope) : Prop where
  command : a.command = none
  responseId : a.responseId = v.1.requestId
  route : a.route = v.1.source
  source : a.source = some own
  error : a.error.isSome ↔ ∀ data, v.2 ≠ some (.returned data)

variable {σ : Type} {h : Handler σ} {s t : Service σ} {es : List Event} {m : Envelope} {v : Verdict}

/-- The verdict on a request that something brings about. -/
def Event.verdict? : Event → Option Verdict
  | received m => if m.requestId.isSome && m.isMalformed then some (m, none) else none
  | settled m outcome => if m.requestId.isSome then some (m, some outcome) else none
  | _ => none

def verdicts (es : List Event) : List Verdict := es.filterMap Event.verdict?

theorem filterMap_cons_toList {α β : Type} (f : α → Option β) (a : α) (l : List α) :
    (a :: l).filterMap f = (f a).toList ++ l.filterMap f := by
  rw [List.filterMap_cons]
  cases f a <;> rfl

theorem Answers.refusal {e : WireError} (route : String) (m : Envelope) :
    Answers route (m, none) { m.failure e.text with source := some route } where
  command := rfl
  responseId := rfl
  route := rfl
  source := rfl
  error := by simp [Envelope.failure]

theorem Answers.reply (route : String) (m : Envelope) (outcome : Outcome (Option Value)) :
    Answers route (m, some outcome) { responseTo m outcome with source := some route } := by
  cases outcome <;> constructor <;>
    simp [responseTo, Outcome.supervised, Envelope.response, Envelope.failure]

theorem Event.answers (route : String) (e : Event) :
    ∃ as, List.Forall₂ (Answers route) e.verdict?.toList as ∧
      e.output route = e.said?.toList ++ as := by
  cases e with
  | received m =>
    cases hc : m.command? with
    | ok c =>
      exact ⟨[], by simp [verdict?, Envelope.isMalformed, hc], by simp [output, refusal, hc]⟩
    | error e =>
      by_cases hq : m.requestId.isSome = true
      · refine ⟨[{ m.failure e.text with source := some route }], ?_, by
          simp [output, refusal, hc, hq]⟩
        simpa [verdict?, Envelope.isMalformed, hc, hq] using .refusal route m
      · exact ⟨[], by simp [verdict?, hq], by simp [output, refusal, hc, hq]⟩
  | settled m outcome =>
    by_cases hq : m.requestId.isSome = true
    · refine ⟨[{ responseTo m outcome with source := some route }], ?_, by
        simp [output, reply, hq]⟩
      simpa [verdict?, hq] using .reply route m outcome
    · exact ⟨[], by simp [verdict?, hq], by simp [output, reply, hq]⟩
  | said m => exact ⟨[], .nil, rfl⟩
  | delivered | handled | entered | expired | returned | taken => exact ⟨[], .nil, rfl⟩

/-- What is put out are the commands of the service itself and answers, one to each verdict. -/
theorem exists_answers (route : String) (es : List Event) :
    ∃ as, List.Forall₂ (Answers route) (verdicts es) as ∧ putOut route es ~ said es ++ as := by
  induction es with
  | nil => exact ⟨[], .nil, .nil⟩
  | cons e es ih =>
    obtain ⟨as, has, hput⟩ := ih
    obtain ⟨bs, hbs, hout⟩ := e.answers route
    refine ⟨bs ++ as, ?_, ?_⟩
    · rw [verdicts, filterMap_cons_toList]
      exact List.rel_append hbs has
    · rw [putOut, List.flatMap_cons, hout, said, filterMap_cons_toList]
      calc e.said?.toList ++ bs ++ putOut route es
          ~ e.said?.toList ++ bs ++ (said es ++ as) := hput.append_left _
        _ = e.said?.toList ++ (bs ++ said es ++ as) := by simp only [List.append_assoc]
        _ ~ e.said?.toList ++ (said es ++ bs ++ as) :=
          (List.perm_append_comm.append_right _).append_left _
        _ = e.said?.toList ++ said es ++ (bs ++ as) := by simp only [List.append_assoc]

theorem verdicts_perm (es : List Event) : verdicts es ~
    ((received es).filter fun m => m.requestId.isSome && m.isMalformed).map (·, none) ++
      ((Service.settled es).filter (·.1.requestId.isSome)).map fun v => (v.1, some v.2) := by
  induction es with
  | nil => exact .nil
  | cons e es ih =>
    cases e with
    | received m =>
      by_cases hm : (m.requestId.isSome && m.isMalformed) = true
      · simpa [verdicts, received, Service.settled, Event.verdict?, hm,
          List.filterMap_cons] using ih
      · simpa [verdicts, received, Service.settled, Event.verdict?, hm,
          List.filterMap_cons] using ih
    | settled m outcome =>
      by_cases hm : m.requestId.isSome = true
      · have := (ih.cons (m, some outcome)).trans List.perm_middle.symm
        simpa [verdicts, received, Service.settled, Event.verdict?, hm,
          List.filterMap_cons] using this
      · simpa [verdicts, received, Service.settled, Event.verdict?, hm,
          List.filterMap_cons] using ih
    | _ => exact ih

/-- From rest to rest, all that is delivered is taken in, and the handler is given the commands
among it, each once; what came of them is told. -/
theorem Balanced.settles (hb : Balanced s es t) (hs : s.Clear) (ht : t.Clear) :
    received es = delivered es ∧ Service.handled es ~ Service.settled es ∧
      (Service.settled es).map (·.1) ~ (delivered es).filter (·.isWork) := by
  have hin : received es = delivered es := by simpa [hs.input, ht.input] using hb.input.symm
  refine ⟨hin, ?_, ?_⟩
  · simpa [hs.outcomes, ht.outcomes] using hb.handled
  · simpa [hs.unsettled, ht.unsettled, hin] using hb.settled

theorem filter_isRequest_perm (ms : List Envelope) : ms.filter Envelope.isRequest ~
    (ms.filter fun m => m.requestId.isSome && m.isMalformed) ++
      (ms.filter (·.isWork)).filter (·.requestId.isSome) := by
  have hm (m : Envelope) :
      (m.isMalformed && m.isRequest) = (m.requestId.isSome && m.isMalformed) := by
    rw [Envelope.isRequest_eq]
    cases m.isMalformed <;> simp
  have hw (m : Envelope) : (!m.isMalformed && m.isRequest) = (m.requestId.isSome && m.isWork) := by
    have := m.isMalformed_of_isWork
    rw [Envelope.isRequest_eq]
    cases hw : m.isWork <;> cases hf : m.isMalformed <;> simp_all
  have hsplit := List.filter_append_perm (·.isMalformed) (ms.filter Envelope.isRequest)
  simp only [List.filter_filter, hm, hw] at hsplit ⊢
  exact hsplit.symm

/-- Every request gets its verdict once. -/
theorem verdicts_requests (hb : Balanced s es t) (hs : s.Clear) (ht : t.Clear) :
    (verdicts es).map (·.1) ~ (delivered es).filter Envelope.isRequest := by
  obtain ⟨hin, -, hset⟩ := hb.settles hs ht
  have hv := (verdicts_perm es).map (·.1)
  rw [List.map_append, List.map_map, List.map_map, hin] at hv
  calc (verdicts es).map (·.1)
      ~ _ := hv
    _ = ((delivered es).filter fun m => m.requestId.isSome && m.isMalformed) ++
        ((Service.settled es).map (·.1)).filter (·.requestId.isSome) := by
      rw [List.filter_map]
      simp [Function.comp_def]
    _ ~ ((delivered es).filter fun m => m.requestId.isSome && m.isMalformed) ++
        ((delivered es).filter (·.isWork)).filter (·.requestId.isSome) :=
      (hset.filter _).append_left _
    _ ~ _ := (filter_isRequest_perm _).symm

/-- What the handler made of requests is what the verdicts say. -/
theorem verdicts_handled (hb : Balanced s es t) (hs : s.Clear) (ht : t.Clear) :
    (verdicts es).filterMap (fun v => v.2.map (v.1, ·)) ~
      (handled es).filter (·.1.requestId.isSome) := by
  obtain ⟨-, hh, -⟩ := hb.settles hs ht
  have hv := (verdicts_perm es).filterMap (fun v => v.2.map (v.1, ·))
  rw [List.filterMap_append, List.filterMap_map, List.filterMap_map] at hv
  have hnone : (fun v : Verdict => v.2.map (v.1, ·)) ∘ (fun m : Envelope => (m, none))
      = fun _ => none := rfl
  have hsome : (fun v : Verdict => v.2.map (v.1, ·)) ∘
      (fun v : Envelope × Outcome (Option Value) => (v.1, some v.2)) = some := rfl
  rw [hnone, hsome, List.filterMap_some, List.filterMap_eq_nil_iff.2 fun _ _ => rfl] at hv
  exact hv.trans (hh.symm.filter _)

theorem verdicts_malformed (hb : Balanced s es t) (hs : s.Clear) (ht : t.Clear)
    (hv : v ∈ verdicts es) : v.2 = none ↔ v.1.isMalformed = true := by
  obtain ⟨-, -, hset⟩ := hb.settles hs ht
  obtain ⟨e, he, hev⟩ := List.mem_filterMap.1 hv
  cases e with
  | received m =>
    simp only [Event.verdict?, Option.ite_none_right_eq_some, Bool.and_eq_true,
      Option.some.injEq] at hev
    obtain ⟨⟨-, hm⟩, rfl⟩ := hev
    simp [hm]
  | settled m outcome =>
    simp only [Event.verdict?, Option.ite_none_right_eq_some, Option.some.injEq] at hev
    obtain ⟨-, rfl⟩ := hev
    have hmem : m ∈ (Service.settled es).map (·.1) :=
      List.mem_map.2 ⟨(m, outcome), List.mem_filterMap.2 ⟨_, he, rfl⟩, rfl⟩
    have hwork := (List.mem_filter.1 (hset.mem_iff.1 hmem)).2
    simp [Envelope.isMalformed_of_isWork hwork]
  | _ => cases hev

/-- What a run of a service puts out besides its own commands. -/
structure Answered (s : Service σ) (es : List Event) (t : Service σ) (vs : List Verdict) :
    Prop where
  requests : vs.map (·.1) ~ (delivered es).filter Envelope.isRequest
  handled : vs.filterMap (fun v => v.2.map (v.1, ·)) ~
    (handled es).filter (·.1.requestId.isSome)
  malformed : ∀ v ∈ vs, v.2 = none ↔ v.1.isMalformed = true
  output : ∃ gained as, s.output.items ++ gained = taken es ++ t.output.items ∧
    gained ~ said es ++ as ∧ List.Forall₂ (Answers s.route) vs as

theorem Balanced.answered (hb : Balanced s es t) (hs : s.Clear) (ht : t.Clear) :
    ∃ vs, Answered s es t vs := by
  obtain ⟨as, has, hput⟩ := exists_answers s.route es
  exact ⟨verdicts es, verdicts_requests hb hs ht, verdicts_handled hb hs ht,
    fun v hv => verdicts_malformed hb hs ht hv, putOut s.route es, as, hb.output, hput, has⟩

/-- A running service answers every request once, whatever is delivered to it, whatever the
handler makes of it and in whichever order the steps are taken; nothing else is answered. -/
theorem requests_answered (hs : s.Sound) (hi : s.Idle) (hr : Run h s es t) :
    (∃ fs u, Run h t fs u ∧ delivered fs = [] ∧ u.Idle) ∧
      (t.Idle → ∃ vs, Answered s es t vs) := by
  obtain ⟨ht, hb⟩ := hr.balanced hs
  exact ⟨exists_run_idle ht (hr.loop_ne hs (by simp [hi.loop])), fun hidle =>
    hb.answered hi.toClear hidle.toClear⟩

/-- A handler that gives back what it gets, or breaks down. -/
def clerk : Handler Unit where
  handle _ _ _ m :=
    ((), { outcome := if m.command = some "echo" then .returned m.data else .crashed })
  dispose _ _ := ()

def desk : Service Unit := { route := "desk", loop := .running, state := () }

/-- Two commands of which the second is done first, one that is malformed, a disposal, a command
that nobody waits for, and an answer. -/
def errands? : Option (List Event × Service Unit) :=
  desk.acts? clerk [
    .deliver { command := some "echo", requestId := some "1", source := some "a" },
    .deliver { command := some "break", requestId := some "2" },
    .receive, .begin 0, .receive, .begin 1, .work ⟨0⟩ 1, .work ⟨0⟩ 0, .answer 1,
    .deliver { command := some "dispose", requestId := some "3", source := some "b" },
    .deliver { (Envelope.ofCommand (.dispose "r")) with requestId := some "4" },
    .deliver { command := some "echo" },
    .deliver { responseId := some "1" },
    .receive, .receive, .dispose, .receive, .receive, .receive, .begin 2, .work ⟨0⟩ 2, .answer 2,
    .answer 0]

theorem errands?_isSome : errands?.isSome := by decide +kernel

def errands : List Event × Service Unit := errands?.get errands?_isSome

theorem errands_answered : desk.Sound ∧ desk.Idle ∧ Run clerk desk errands.1 errands.2 ∧
    errands.2.Idle ∧
    errands.2.output.items.map (fun a => (a.responseId, a.route, a.source, a.error.isSome)) =
      [(some "2", none, some "desk", true), (some "3", some "b", some "desk", true),
        (some "1", some "a", some "desk", false)] ∧
    ∃ vs, Answered desk errands.1 errands.2 vs := by
  have hs : desk.Sound := ⟨by simp [desk], rfl, rfl⟩
  have hi : desk.Idle := by decide +kernel
  have hr : Run clerk desk errands.1 errands.2 :=
    run_of_acts? (Option.some_get errands?_isSome).symm
  have ht : errands.2.Idle := by decide +kernel
  exact ⟨hs, hi, hr, ht, by decide +kernel, (requests_answered hs hi hr).2 ht⟩

end Service

end Switchboard
