import Switchboard.Proofs.Admission.Conservation
import Switchboard.Proofs.Feed.Handover
import Switchboard.Proofs.Feed.Parties
import Switchboard.Proofs.Feed.Play

/-! What a client that is admitted sends is routed faithfully: in order, nothing of it twice or
changed but for the stamp, and all of it once everything has run. -/
namespace Switchboard

variable {σ : Type} {x : Exchange σ} {f f' : Feed σ} {g : Grant} {ph : Phase}
  {heard fed : List Envelope} {q : Queue} {k p : Nat} {u : Pump} {m : Envelope}

namespace Exchange

theorem voice_meet (x : Exchange σ) : x.meet.voice x.endpoints.length = some ({}, none, none) := by
  simp [voice, peer?, meet, Endpoint.peer?, Peer.voice]

/-- A pump that nobody has cancelled takes what there is to take. -/
theorem fetch_of_voice {papers : Option String × Option String} {rest : List Envelope}
    (hu : x.router.pumps[p]? = some u) (hc : u.cancelled = false)
    (hv : x.voice u.endpoint = some (q, papers)) (hq : q.items = m :: rest) :
    ∃ y, x.fetch p = .held y := by
  obtain ⟨v, hp, rfl, -, -⟩ := peer?_of_voice hv
  obtain ⟨e, he, hpeer⟩ := Option.bind_eq_some_iff.1 hp
  cases e <;> cases hpeer
  have htake : v.outbox.take = .envelope m { v.outbox with items := rest } := by
    rw [Queue.take, hq]
  exact ⟨_, by simp only [fetch, hu, hc, hear, he, Endpoint.outgoing, htake]; rfl⟩

end Exchange

namespace Feed

namespace Sound

/-- A connection that has just been accepted. -/
theorem start (hx : x.Tidy) (grace : Duration) (maxFrame : Nat) :
    Sound x { exchange := x.meet, served := .new x.endpoints.length grace maxFrame } .fresh [] []
      {} where
  course := .new _ _ _
  said := .new maxFrame
  hearing := ⟨fun _ => rfl, fun _ => nofun, fun _ => nofun⟩
  voice := x.voice_meet
  isOpen := rfl
  bindings := (hx.beyond (Nat.le_refl _)).1
  flow := .idle rfl (hx.beyond (Nat.le_refl _)).2 rfl
  down := id

theorem step (h : Sound x f ph heard fed q) (hs : f.Step f') :
    ∃ qh heard' fed' q', Sound x f' qh heard' fed' q' := by
  cases hs with
  | party hs =>
    obtain ⟨qh, heard', q', hq⟩ := h.party hs
    exact ⟨qh, heard', fed, q', hq⟩
  | watch side _ _ hb => exact ⟨ph, heard, fed, q, h.close _ hb⟩
  | fetch hu hidle hy =>
    obtain ⟨fed', q', hq⟩ := h.fetch hu hidle hy
    exact ⟨ph, heard, fed', q', hq⟩
  | forward p => exact ⟨ph, heard, fed, q, h.forward p⟩
  | sent m source =>
    exact ⟨ph, heard, fed, q, h.others (Exchange.apart_route m source) fun _ => trivial⟩
  | operate op ho => exact ⟨ph, heard, fed, q, h.operate ho⟩
  | aside hr hv => exact ⟨ph, heard, fed, q, h.others (.of_router hv hr) fun _ => trivial⟩

end Sound

theorem sound_of_reachable (hx : x.Tidy) (h : Reachable x f) :
    ∃ ph heard fed q, Sound x f ph heard fed q := by
  induction h with
  | start grace maxFrame => exact ⟨_, _, _, _, .start hx grace maxFrame⟩
  | step _ hs ih =>
    obtain ⟨ph, heard, fed, q, h⟩ := ih
    exact h.step hs

/-- What becomes of the bytes of a client that was admitted with the grant `g`. -/
structure Conveyed (x : Exchange σ) (f : Feed σ) (g : Grant) : Prop where
  /-- The first envelope got it admitted. -/
  admitted : ∃ m token rest, f.decoded = m :: rest ∧
    m.command? = .ok (some (.authenticate token))
  /-- What was routed is the front of all that follows, each envelope with its stamp. -/
  routed : f.routed <+: f.decoded.tail.map fun m => (g.stamp m, g.route)
  /-- Each of them was routed in one call of the router by the pump of the peer, after those before
  it, and got into an inbox, was consumed or was reported. -/
  called : ∀ front m source back, f.routed = front ++ (m, source) :: back →
    Called x f front m source
  /-- It is all of it, once everything has run and the connection is open still. -/
  complete : f.AtRest → f.Live x → f.routed = f.decoded.tail.map fun m => (g.stamp m, g.route)
  /-- Nothing but the end of the stream, or a frame that cannot be taken, or the close of the
  connection makes an end of reading. -/
  skipping : f.served.connection.intake.result.isSome →
    f.served.connection.guard.cancelled = true ∨ f.Over
  /-- A stream that is over closes the connection. -/
  closed : f.AtRest → f.Over → f.served.connection.guard.closed = true

namespace Sound

/-- As long as the connection is open and everything has run, reading goes on. -/
theorem reads_on (h : Sound x f ph heard fed q) (hr : f.AtRest)
    (ho : f.served.connection.guard.closed = false) :
    f.served.connection.intake.result = none := by
  cases hres : f.served.connection.intake.result with
  | none => rfl
  | some r =>
    have hseen := hr.watched .reading (by rw [Session.sideResult, hres]; rfl)
    rw [(h.course.running ho).seen] at hseen
    cases hseen

/-- Then all that the client has sent is said. -/
theorem said_all (h : Sound x f ph heard fed q) (hr : f.AtRest)
    (ho : f.served.connection.guard.closed = false) :
    heard ++ fed ++ q.items = f.decoded ∧ ¬f.Over :=
  h.said.complete (h.reads_on hr ho) hr.read

/-- And the pump has fetched it all, and holds nothing. -/
theorem routed_all (h : Sound x f ph heard fed q) (hr : f.AtRest) (hl : f.Live x) :
    ∃ g, ph = .bound g ∧ q.items = [] ∧
      f.routed = fed.map fun m => (g.stamp m, g.route) := by
  have hbound : ph.bound?.isSome := by
    rcases (h.course.running hl.1).admission with ha | ⟨-, hb⟩
    · rw [hr.served] at ha
      cases ha
    · exact hb
  have hv := h.voice
  cases h.flow with
  | idle hnone _ _ =>
    rw [hnone] at hbound
    cases hbound
  | @bound g p u _ hs hu hlive hrouted =>
    obtain ⟨hidle, hnothing⟩ := hr.pumped p u hs.found hs.endpoint
    refine ⟨g, rfl, ?_, by simpa [hidle] using hrouted⟩
    cases hq : q.items with
    | nil => rfl
    | cons m rest =>
      rw [← hs.endpoint] at hv
      obtain ⟨y, hy⟩ := Exchange.fetch_of_voice hs.found (hlive hl) hv hq
      exact absurd hy (hnothing y)

theorem conveyed (h : Sound x f ph heard fed q) (hr : Reachable x f)
    (hg : ph.grant? = some g) : Conveyed x f g := by
  obtain ⟨first, token, rfl, hcommand⟩ := h.hearing.granted g hg
  obtain ⟨later, hlater⟩ := h.said.front
  have hall : f.decoded = first :: (fed ++ q.items ++ later) := by
    rw [decoded, Event.received, ← hlater]
    simp
  constructor
  case admitted => exact ⟨first, token, _, hall, hcommand⟩
  case routed =>
    rw [hall, List.tail_cons]
    cases h.flow with
    | idle _ _ hr =>
      rw [hr]
      exact List.nil_prefix
    | bound hs hu hl hr =>
      obtain rfl := Option.some.inj hg
      rw [List.append_assoc, List.map_append, ← hr, List.append_assoc]
      exact List.prefix_append _ _
  case called => exact fun _ _ _ _ hrouted => called_of_routed hr hrouted
  case complete =>
    intro hrest hlive
    obtain ⟨g', rfl, hq, hr⟩ := h.routed_all hrest hlive
    obtain rfl : g' = g := Option.some.inj hg
    rw [hr, ← (h.said_all hrest hlive.1).1, hq]
    simp
  case skipping => exact h.said.ended
  case closed =>
    intro hrest hover
    cases hc : f.served.connection.guard.closed with
    | true => rfl
    | false => exact absurd hover (h.said_all hrest hc).2

end Sound

/-- What an admitted client sends is conveyed, whatever the pieces are in which it comes, and in
whatever order the service, the sides of the stream, the pumps and everybody else make their
steps. -/
theorem stream_conveyed (hx : x.Tidy) (h : Reachable x f) (hg : .granted g ∈ f.events) :
    Conveyed x f g := by
  obtain ⟨ph, heard, fed, q, hs⟩ := sound_of_reachable hx h
  refine hs.conveyed h ?_
  rwa [Event.granted_mem_iff, hs.course.grants, Option.mem_toList] at hg

/-- A router that accepts one token and has an uplink, with the pump of the uplink. -/
def lobby : Exchange Unit where
  router := {
    accepted := ({} : Registry String Identity).insert "t" {}
    uplink := some { endpoint := 0, pump := 0 }
    pumps := [{ source := uplinkRoute, endpoint := 0 }] }
  endpoints := [.mailbox { complaint := "gone" }]

theorem lobby_tidy : lobby.Tidy where
  routes _ _ := nofun
  uplink _ hb := by
    cases hb
    rfl
  pumps := by simp [lobby]

/-- What a client says that does not wait to be admitted: the token, a frame that does not decode,
a command with a forged token, a command with a source, and the beginning of a frame. -/
def pipelined : Bytes :=
  knock ++ [0, 0, 0, 1, 193] ++
    [0, 0, 0, 26, 130, 167, 99, 111, 109, 109, 97, 110, 100, 164, 112, 105, 110, 103, 169, 97, 117,
      116, 104, 116, 111, 107, 101, 110, 161, 120] ++
    [0, 0, 0, 23, 130, 167, 99, 111, 109, 109, 97, 110, 100, 164, 112, 105, 110, 103, 166, 115, 111,
      117, 114, 99, 101, 161, 121] ++ [0, 0]

def chat? : Option (Feed Unit) :=
  acts? { exchange := lobby.meet, served := .new 1 (.ofSeconds 5) 100 }
    [.party (.arrive (.data pipelined)), .party .read, .party .read, .party .read, .party .read,
      .party .read, .party .service, .party .service, .party .service, .party .service,
      .party .service, .party .service, .party .service, .fetch 1, .forward 1, .fetch 1, .forward 1]

theorem chat?_isSome : chat?.isSome := by decide +kernel

def chat : Feed Unit := chat?.get chat?_isSome

theorem chat_granted : ∃ g, .granted g ∈ chat.events := by
  have hsome : (chat.events.filterMap Event.grant?).head?.isSome := by decide +kernel
  obtain ⟨g, hg⟩ := Option.isSome_iff_exists.1 hsome
  exact ⟨g, Event.granted_mem_iff.2 (List.mem_of_head? hg)⟩

theorem chat_conveyed : lobby.Tidy ∧ Reachable lobby chat ∧ chat.AtRest ∧ chat.Live lobby ∧
    chat.routed.map (fun r => (r.1.authToken, r.1.source, r.2)) =
      [(some (Id.ofNat 1), some (Identity.processRoute (Id.ofNat 0)),
          Identity.processRoute (Id.ofNat 0)),
        (some (Id.ofNat 1), some "y", Identity.processRoute (Id.ofNat 0))] ∧
    ∃ g, .granted g ∈ chat.events ∧ Conveyed lobby chat g := by
  have hreach : Reachable lobby chat :=
    reachable_of_acts? (.start _ _) (Option.some_get chat?_isSome).symm
  obtain ⟨g, hg⟩ := chat_granted
  refine ⟨lobby_tidy, hreach, by decide +kernel, ⟨by decide +kernel, by decide +kernel⟩,
    by decide +kernel, g, hg, stream_conveyed lobby_tidy hreach hg⟩

end Feed

end Switchboard
