import Switchboard.Proofs.Relay.Independence
import Switchboard.Proofs.Relay.Order

/-! Whatever the pumps of a router carry from endpoint to endpoint comes in order and nothing of it
twice, and nothing is lost without a report, however pumps, registrations and announcements take
turns. -/
namespace Switchboard

namespace Exchange

variable {σ : Type} {x : Exchange σ} {m : Envelope} {source : String}

theorem send_report (x : Exchange σ) (k : Nat) (m : Envelope) :
    ∃ e, (x.send k m).2 = if x.listens k then .ok () else .error e := by
  cases he : x.endpoints[k]? with
  | none => exact ⟨_, by simp [send, listens, he]; rfl⟩
  | some e => exact ⟨e.complaint, by rw [send_snd he, listens_eq he]⟩

end Exchange

namespace Relay

open Exchange
open List (Forall₂ SublistForall₂)

variable {σ : Type} {x y z : Exchange σ} {t : Entry} {log more : List Entry} {s d k : Nat}
  {m : Envelope} {source : String}

/-- What comes of an envelope that is routed: a command about routes is consumed and passed on
once at most, and anything else gets into one inbox or is reported as a failure. -/
inductive Fate (m : Envelope) (source : String) : List Handing → Except Error Unit → Prop
  | consumed {handed : List Handing} {report : Except Error Unit} (hc : IsControl m)
      (hh : handed = [] ∨ ∃ uplink, handed = [⟨uplink, sourced m source⟩]) :
      Fate m source handed report
  | delivered (d : Nat) : Fate m source [⟨d, sourced m source⟩] (.ok ())
  | failed (text : String) : Fate m source [] (.error (.routing text))

/-- What an envelope is reported to have come to when the tables say where it goes. -/
theorem deliver_report (x : Exchange σ) (m : Envelope) (source : String) :
    (∃ d, x.taken ((x.router.resolve? m.route source).map fun a => ⟨a.2.endpoint, m⟩).toList
        = [⟨d, m⟩] ∧ (x.deliver m source).2 = .ok ()) ∨
    (x.taken ((x.router.resolve? m.route source).map fun a => ⟨a.2.endpoint, m⟩).toList = [] ∧
      ∃ text, (x.deliver m source).2 = .error (.routing text)) := by
  unfold deliver
  cases x.router.resolve? m.route source with
  | none => exact .inr ⟨rfl, _, rfl⟩
  | some a =>
    obtain ⟨name, b⟩ := a
    obtain ⟨e, he⟩ := send_report x b.endpoint m
    simp only [Option.map_some, Option.toList_some, taken_cons]
    generalize x.send b.endpoint m = v at he
    obtain ⟨y, report⟩ := v
    cases hl : x.listens b.endpoint with
    | true =>
      obtain rfl : report = .ok () := by simpa [hl] using he
      exact .inl ⟨b.endpoint, by simp [taken], rfl⟩
    | false =>
      obtain rfl : report = .error e := by simpa [hl] using he
      exact .inr ⟨by simp [taken], _, rfl⟩

theorem fate_route (x : Exchange σ) (m : Envelope) (source : String) :
    Fate m source (x.taken (routeHandings x.router m source)) (x.route m source).2 := by
  by_cases hc : IsControl m
  · exact .consumed hc (taken_routeHandings x m source)
  by_cases hclosed : x.router.closed = true
  · simpa [routeHandings, route, hclosed, taken] using Fate.failed "router is shut down"
  have hc' := mt (isControl_sourced m source).1 hc
  have hhandings : routeHandings x.router m source =
      ((x.router.resolve? (sourced m source).route source).map
        fun a => ⟨a.2.endpoint, sourced m source⟩).toList := by
    simp [routeHandings, hclosed, hc']
  have hreport : (x.route m source).2 = (x.deliver (sourced m source) source).2 := by
    rw [IsControl, not_or] at hc'
    simp [route, hclosed, hc']
  rw [hhandings, hreport]
  rcases deliver_report x (sourced m source) source with ⟨d, hd, hr⟩ | ⟨hd, text, hr⟩
  · rw [hd, hr]
    exact .delivered d
  · rw [hd, hr]
    exact .failed text

/-- What a pump routes comes to what routing comes to. -/
theorem Step.fate (h : Step x t y) (ht : t.turn = .forward k source m) :
    Fate m source t.handed t.report := by
  cases h with
  | @forward p u n hu hm =>
    cases ht
    have hreport : (x.forward p).2 = ((x.setPump p none).route m u.source).2 := by
      obtain ⟨source, endpoint, cancelled, held⟩ := u
      subst hm
      simp only [Exchange.forward, hu]
    rw [hreport]
    exact fate_route (x.setPump p none) m u.source
  | produce | consume | shut | change | fetch | inject | operate => cases ht

theorem Run.fate (h : Run x log y) (ht : t ∈ log) (hturn : t.turn = .forward k source m) :
    Fate m source t.handed t.report := by
  induction h with
  | nil x => simp at ht
  | cons h hr ih =>
    rcases List.mem_cons.1 ht with rfl | ht
    · exact h.fate hturn
    · exact ih ht

theorem handedFrom_sublist (s d : Nat) (log : List Entry) :
    List.Sublist (handedFrom s d log) (handedTo d log) := by
  induction log with
  | nil => exact .slnil
  | cons t log ih =>
    rw [handedFrom, handedTo, List.flatMap_cons, List.flatMap_cons]
    refine List.Sublist.append ?_ ih
    split
    · split
      · exact List.Sublist.refl _
      · exact List.nil_sublist _
    · exact List.nil_sublist _

/-- What a run says of the envelopes that `s` says and of the inbox of `d`. -/
structure Faithful (s d : Nat) (x : Exchange σ) (log : List Entry) (y : Exchange σ) : Prop where
  /-- The inbox of `d` got what the log says, in that order, and lost nothing but what was taken
  out of it. -/
  inbox : x.incoming d ++ handedTo d log = consumedBy d log ++ y.incoming d
  /-- What `d` got of `s` is some of it, in the order in which `d` got it. -/
  received : List.Sublist (handedFrom s d log) (handedTo d log)
  /-- What `d` got of `s` is some of what `s` said, in the order in which `s` said it. -/
  ordered : SublistForall₂ Stems (handedFrom s d log) (x.waiting s ++ produced s log)
  /-- All that `s` said was routed in that order, or is still to be. -/
  kept : Forall₂ Stems (forwarded s log ++ y.waiting s) (x.waiting s ++ produced s log)
  /-- Whatever was routed was consumed, got into one inbox, or was reported as a failure. -/
  settled : ∀ t ∈ log, ∀ k source m, t.turn = .forward k source m →
    Fate m source t.handed t.report
  /-- Messages of others, and all that goes on inside endpoints, may take turns in any other way. -/
  independent : ∀ log' y', Run x log' y' →
    (log.map Entry.turn).filter (Turn.bears s d)
      = (log'.map Entry.turn).filter (Turn.bears s d) →
    handedFrom s d log = handedFrom s d log'

/-- In every run of pumps, operations and endpoints, in whatever order, each endpoint gets what
any other says in the order it is said and nothing of it twice; nothing that is routed is lost
without a report; and what it gets of the one does not depend on the messages of others. -/
theorem run_faithful (hx : x.BoundOnce) (h : Run x log y) (s d : Nat) :
    Faithful s d x log y where
  inbox := h.incoming d
  received := handedFrom_sublist s d log
  ordered := h.handedFrom_said hx s d
  kept := h.waiting hx s
  settled := fun _ ht _ _ _ hturn => h.fate ht hturn
  independent := fun _ _ h' hturns => h.handedFrom_congr h' hturns

/-- Three mailboxes, each bound to a route. -/
def office : Exchange Unit where
  router := {
    routes := (((({} : Registry String Binding).insert "a" { endpoint := 0, pump := 0 }).insert
      "b" { endpoint := 1, pump := 1 }).insert "c" { endpoint := 2, pump := 2 })
    pumps := [{ source := "a", endpoint := 0 }, { source := "b", endpoint := 1 },
      { source := "c", endpoint := 2 }] }
  endpoints := [.mailbox { complaint := "closed" }, .mailbox { complaint := "closed" },
    .mailbox { complaint := "closed" }]

/-- The first has something to say to the second; the third speaks too and is unregistered before
any of it is routed. -/
theorem office_faithful : office.BoundOnce ∧ ∃ log y, Run office log y ∧
    handedFrom 0 1 log = [{ route := some "b", source := some "a" }] ∧
      Faithful 0 1 office log y := by
  have hoffice : office.BoundOnce := by simp [BoundOnce, office]
  have h : Run office _ _ :=
    .cons (.produce (k := 0) (m := { route := some "b" }) rfl rfl) <|
    .cons (.fetch (p := 0) rfl rfl rfl) <|
    .cons (.produce (k := 2) (m := { route := some "b" }) rfl rfl) <|
    .cons (.fetch (p := 2) rfl rfl rfl) <|
    .cons (.operate (.unregister "c") (by simp [Operation.bound?])) <|
    .cons (.forward (p := 2) rfl rfl) <|
    .cons (.forward (p := 0) rfl rfl) <|
    .nil _
  exact ⟨hoffice, _, _, h, rfl, run_faithful hoffice h 0 1⟩

end Relay

end Switchboard
