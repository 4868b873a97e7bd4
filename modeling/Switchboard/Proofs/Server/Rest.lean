import Switchboard.Proofs.Server.Shifts

/-! A server that serves nobody but its uplink comes to rest, and nothing is left to do then. -/
namespace Switchboard.Server

open Session (AtRest Turn Turns)

variable {s t u : Session Agent} {o p : Office} {b c : Bytes} {start : Service Agent}
  {news : List Envelope} {r : History}

namespace Serves

/-- At rest the pumps hold nothing and find nothing. -/
theorem pumps_rest (hs : Serves s o) (hr : s.AtRest Agent.handler) {n : Nat} (hn : n < 2) :
    o.holds n = none ∧ o.waiting n = [] := by
  have hno : s.stepPump (4 * n) 1 n = none := hr _ _ (hs.crew.pump n hn)
  rw [stepPump_eq hs.shows hn hs.crew.lines] at hno
  by_cases hheld : (o.holds n).isSome
  · rw [if_pos hheld] at hno
    cases hno
  · rw [if_neg hheld] at hno
    have hnone : o.holds n = none := by simpa using hheld
    by_cases hmem : (n, 4 * n) ∈ s.lines
    · rw [if_pos hmem] at hno
      rcases Office.fetch_step hs.sound hn hnone with ⟨hw, -⟩ | ⟨p, -, -, hx⟩
      · exact ⟨hnone, hw⟩
      · rw [hx] at hno
        cases hno
    · rw [if_neg hmem] at hno
      cases hno

theorem side_rest (hs : Serves s o) (hr : s.AtRest Agent.handler) (side : Side) :
    Has s (inner side) := by
  obtain ⟨begun, hb, hinner⟩ := hs.crew.keeper side
  cases begun with
  | true => exact hinner rfl
  | false =>
    have hno := hr _ _ hb
    cases side <;> cases hno

theorem intake_rest (hs : Serves s o) (hr : s.AtRest Agent.handler) :
    o.reads = [] ∧ o.reader.split? Packet.maxLine = none := by
  obtain ⟨id, hid⟩ := hs.side_rest hr .reading
  have hno : s.stepLinkIntake 0 = none := hr _ _ hid
  rw [hs.shows.stepLinkIntake_eq] at hno
  rcases o.read_step with ⟨hsplit, hreads, -⟩ | ⟨p, -, -, hread⟩
  · exact ⟨hreads, hsplit⟩
  · rw [hs.shows.onLink_eq hread] at hno
    cases hno

theorem outlet_rest (hs : Serves s o) (hr : s.AtRest Agent.handler) : o.inbox = [] := by
  obtain ⟨id, hid⟩ := hs.side_rest hr .writing
  have hno : s.stepLinkOutlet 0 = none := hr _ _ hid
  rw [hs.shows.stepLinkOutlet_eq] at hno
  rcases o.write_step with ⟨hinbox, -⟩ | ⟨p, -, -, hwrite⟩
  · exact hinbox
  · rw [hs.shows.onLink_eq hwrite] at hno
    cases hno

/-- At rest the loop waits for an envelope, and there is none. -/
theorem loop_rest (hs : Serves s o) (hr : s.AtRest Agent.handler) :
    o.service.loop = .running ∧ o.service.input.items = [] := by
  have hno : s.stepLoop none 0 (.shutdown 1) (decide (o.service.loop ≠ .unused)) = none :=
    hr _ _ hs.crew.loop
  cases hl : o.service.loop with
  | unused =>
    simp [Session.stepLoop, hs.shows.service?_eq, hl, Service.start] at hno
  | stopped => exact absurd hl hs.sound.service.loop
  | disposing route =>
    obtain ⟨id, hid⟩ := hs.crew.needed _ (.dispose hl)
    have hno' : Session.stepDispose Agent.handler s 0 = none := hr _ _ hid
    simp [Session.stepDispose, hs.shows.service?_eq, Service.dispose?, hl] at hno'
  | disposed =>
    simp [Session.stepLoop, hs.shows.service?_eq, hl, Service.receive?] at hno
  | running =>
    refine ⟨rfl, ?_⟩
    cases hi : o.service.input.items with
    | nil => rfl
    | cons m q =>
      simp [Session.stepLoop, hs.shows.service?_eq, hl, Service.receive?, Queue.take, hi,
        Session.isFired, Session.shutdownAt, hs.shows.shutdowns] at hno

theorem jobs_rest (hs : Serves s o) (hr : s.AtRest Agent.handler) :
    ∀ j ∈ o.service.jobs, j.isDone = true := by
  intro j hj
  obtain ⟨k, hk⟩ := List.mem_iff_getElem?.1 hj
  rw [Job.isDone_iff]
  by_contra hdone
  obtain ⟨id, hid⟩ := hs.crew.needed _ (.job hk hdone)
  have hno : s.stepJob 0 k = none := hr _ _ hid
  obtain ⟨m, stage⟩ := j
  cases stage with
  | delivered => simp [Session.stepJob, hs.shows.service?_eq, Service.begin?, hk] at hno
  | begun =>
    obtain ⟨id', hid'⟩ := hs.crew.needed _ (.work hk)
    have hno' : Session.stepWork Agent.handler s 0 k = none := hr _ _ hid'
    simp [Session.stepWork, hs.shows.service?_eq, Service.work?, hk] at hno'
  | working due outcome => exact hs.sound.prompt _ hj due outcome rfl
  | worked outcome =>
    simp [Session.stepJob, hs.shows.service?_eq, Service.begin?, Service.answer?, hk] at hno
  | finished => exact hdone rfl

/-- At rest nobody has anything left to do. -/
theorem quiet (hs : Serves s o) (hr : s.AtRest Agent.handler) : o.Quiet := by
  obtain ⟨hdown, houtput⟩ := hs.pumps_rest hr (n := 0) (by decide)
  obtain ⟨hup, houtbox⟩ := hs.pumps_rest hr (n := 1) (by decide)
  obtain ⟨hreads, hreader⟩ := hs.intake_rest hr
  exact ⟨hreads, hreader, houtbox, hup, ⟨(hs.loop_rest hr).2, hs.jobs_rest hr⟩, houtput, hdown,
    hs.outlet_rest hr⟩

/-- However the fibers take turns, the server comes to rest: each turn is a step of a party, of
which there are only so many, or it gets a fiber ready for one. -/
theorem exists_rest (hs : Serves s o) :
    ∃ u, Turns Agent.handler 0 s [] u ∧ u.AtRest Agent.handler := by
  induction hload : o.load using Nat.strong_induction_on generalizing s o with
  | _ load ihload =>
    induction hrank : rank s using Nat.strong_induction_on generalizing s with
    | _ n ihrank =>
      by_cases hr : s.AtRest Agent.handler
      · exact ⟨s, .refl, hr⟩
      obtain ⟨id, f, hf, ⟨t, rest⟩, hst⟩ : ∃ id f, s.fiber? id = some f ∧
          ∃ a, s.step? Agent.handler id f = some a := by
        simpa [AtRest, Option.ne_none_iff_exists'] using hr
      obtain ⟨p, hp, hstep | ⟨rfl, hlt⟩⟩ := hs.turn hf hst
      · obtain ⟨u, hu, hrest⟩ := ihload _ (hload ▸ hstep.load_lt hs.sound) hp rfl
        exact ⟨u, .append (.single (.fiber hf hst)) hu, hrest⟩
      · obtain ⟨u, hu, hrest⟩ := ihrank _ (hrank ▸ hlt) hp rfl
        exact ⟨u, .append (.single (.fiber hf hst)) hu, hrest⟩

theorem row (hs : Serves s o) (ready : List Nat) : Serves { s with ready } o where
  shows := ⟨hs.shows.routers, hs.shows.router, hs.shows.shutdowns, hs.shows.endpoints,
    hs.shows.minted, hs.shows.links⟩
  crew := hs.crew.congr rfl hs.crew.fresh hs.crew.lines
  sound := hs.sound

theorem time (hs : Serves s o) (clock : Duration) : Serves { s with clock } o where
  shows := ⟨hs.shows.routers, hs.shows.router, hs.shows.shutdowns, hs.shows.endpoints,
    hs.shows.minted, hs.shows.links⟩
  crew := hs.crew.congr rfl hs.crew.fresh hs.crew.lines
  sound := hs.sound

theorem input (hs : Serves s o) (b : Bytes) :
    Serves (s.receiveUplink 0 (.data b)) (o.input b) where
  shows := by
    have hlinks : (s.receiveUplink 0 (.data b)).links = [(1, (o.input b).link)] := by
      simp [Session.receiveUplink, Session.changeLink, hs.shows.links, Office.link, Office.input]
    exact ⟨hs.shows.routers, hs.shows.router, hs.shows.shutdowns, hs.shows.endpoints,
      hs.shows.minted, hlinks⟩
  crew := hs.crew.congr rfl hs.crew.fresh hs.crew.lines
  sound := hs.sound.input b

end Serves

/-- What happens to a session is told by the course of its server. -/
theorem serves_turn (ht : Turn Agent.handler 0 s c u) (hs : Serves s o)
    (hc : Course start news b o r) :
    ∃ p q, Serves u p ∧ Course start news (b ++ c) p q := by
  cases ht with
  | fiber hf hst =>
    rw [List.append_nil]
    obtain ⟨p, hp, hstep | ⟨rfl, -⟩⟩ := hs.turn hf hst
    · obtain ⟨q, hq⟩ := hc.step hs.sound hstep
      exact ⟨p, q, hp, hq⟩
    · exact ⟨p, r, hp, hc⟩
  | row ready => exact ⟨o, r, hs.row ready, by rwa [List.append_nil]⟩
  | time clock => exact ⟨o, r, hs.time clock, by rwa [List.append_nil]⟩
  | input c => exact ⟨_, r, hs.input c, hc.input c⟩

theorem serves_turns (hr : Turns Agent.handler 0 s c u) (hs : Serves s o)
    (hc : Course start news b o r) :
    ∃ p q, Serves u p ∧ Course start news (b ++ c) p q := by
  induction hr with
  | refl => exact ⟨o, r, hs, by rwa [List.append_nil]⟩
  | tail _ ht ih =>
    obtain ⟨p, q, hp, hq⟩ := ih
    rw [← List.append_assoc]
    exact serves_turn ht hp hq

end Switchboard.Server
