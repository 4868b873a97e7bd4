import Switchboard.Proofs.Server.Rest

/-! A server answers its uplink: its announcement and one answer to each request for its own service
are all that it writes. -/
namespace Switchboard.Server

open scoped List
open Session (AtRest Turns)

variable {settings : Settings} {state : Agent} {tree tree' : Files.Tree} {clock : Duration}
  {minted : Nat} {s u : Session Agent} {parts : Parts} {b : Bytes} {token : String}
  {x : Exchange Agent} {g : Grant}

/-- The news of the server's own route. -/
def announcement (own : String) (token : Option String) : Envelope :=
  { Envelope.ofCommand .routeAnnounce with source := some own, authToken := token }

/-- No identity has the route of the uplink for its own. -/
theorem route_ne_uplink {c : Identity} {id route : String} (h : c.route id = .ok route) :
    route ≠ uplinkRoute := by
  have hproc (id : String) : Identity.processRoute id ≠ uplinkRoute := fun he => by
    simpa [Identity.processRoute, uplinkRoute] using congrArg String.toList he
  have hconn (name : String) : Identity.connectionRoute name ≠ uplinkRoute := fun he => by
    simpa [Identity.connectionRoute, uplinkRoute] using congrArg String.toList he
  have hblock (block : String) : Identity.controllerRoute block ≠ uplinkRoute := fun he => by
    simpa [Identity.controllerRoute, uplinkRoute] using congrArg String.toList he
  have hmap {named : Except Error String} {f : String → String} (hf : ∀ a, f a ≠ uplinkRoute)
      (h : named.map f = .ok route) : route ≠ uplinkRoute := by
    cases named with
    | error e => cases h
    | ok a =>
      cases h
      exact hf a
  unfold Identity.route at h
  split at h
  · cases h
    exact hproc id
  · split at h
    · cases h
      exact hproc id
    · split at h
      · exact hmap hconn h
      · split at h
        · exact hmap hblock h
        · cases h

/-- What is noted of a server's own token, and the route that it is granted. -/
theorem acceptOwn_ok (h : Exchange.acceptOwn (σ := Agent) ⟨{}, [], minted⟩ token = (x, .ok g)) :
    ∃ accepted, x = ⟨{ accepted }, [], minted + 2⟩ ∧ g.route ≠ uplinkRoute := by
  unfold Exchange.acceptOwn at h
  split at h
  · cases h
  · simp only at h
    split at h
    · cases h
    · rename_i hroute
      cases h
      exact ⟨_, rfl, route_ne_uplink hroute⟩

theorem service_sound (settings : Settings) (g : Grant) (state : Agent) :
    (service settings g state).Sound := by
  refine ⟨?_, rfl, rfl⟩
  show Loop.unused ≠ .stopped
  decide

/-- The office of a server that was just launched. -/
def opening (settings : Settings) (g : Grant) (state : Agent) (accepted : Registry String Identity)
    (minted : Nat) : Office :=
  { own := g.route, accepted, minted, service := (service settings g state).announce }

/-- A session in which a server is about to be launched. -/
def blank (clock : Duration) (accepted : Registry String Identity) (minted : Nat) : Session Agent :=
  { clock, minted, routers := [{}, { accepted }], router := 1, shutdowns := [{}, {}],
    shutdown := 1, kept := [1] }

/-- What launching a server makes of the session. -/
theorem launch_eq (hi : settings.statusInterval = none) (accepted : Registry String Identity) :
    launch (blank clock accepted minted) settings g state =
      ({ (opening settings g state accepted minted).place (blank clock accepted minted) with
          fibers := [(0, .pump 1 0), (1, .loop none 0 (.shutdown 1) false),
            (2, .watch 0 .reading false), (3, .watch 0 .writing false), (4, .pump 1 1)]
          started := 5
          ready := [0, 1, 2, 3, 4] }, ⟨g.route, 0, 0⟩) := by
  have hroute : ({} : Registry String Binding).get? g.route = none := rfl
  simp [launch, hi, blank, Session.addEndpoint, Session.changeRouter, Session.withRouter,
    Session.lend, Session.put, Session.exchange, Exchange.register, Exchange.mapRouter,
    Router.register, Router.cancelPumpOf, Session.spawn, Session.attach, Session.onService,
    Session.modifyEndpoint, hroute, Router.setUplink, Office.place, opening, Office.router,
    Office.endpoints, Office.link]

theorem opening_sound (hg : g.route ≠ uplinkRoute) (accepted : Registry String Identity) :
    (opening settings g state accepted minted).Sound where
  own := hg
  route := rfl
  service := ⟨(service_sound settings g state).loop, rfl, rfl⟩
  listens := rfl
  heard := rfl
  prompt := fun j hj => by cases hj
  spoken := fun n hn => by
    rw [List.mem_singleton.1 (show n ∈ [announcement g.route (some g.token)] from hn)]
    exact ⟨rfl, .inr rfl⟩

theorem launch_serves (hi : settings.statusInterval = none) (hg : g.route ≠ uplinkRoute)
    (accepted : Registry String Identity) :
    Serves (launch (blank clock accepted minted) settings g state).1
      (opening settings g state accepted minted) := by
  rw [launch_eq hi]
  refine ⟨⟨rfl, rfl, rfl, rfl, rfl, rfl⟩, ⟨by simp, ?_, rfl, ?_, ?_, ?_, ?_⟩,
    opening_sound hg accepted⟩
  · intro p hp
    obtain rfl | rfl : p = 0 ∨ p = 1 := by omega
    · rfl
    · rfl
  · intro side
    cases side <;> exact ⟨false, rfl, by simp⟩
  · intro id f hid hf
    have hmem := Session.mem_fibers hf
    simp only [List.mem_cons, Prod.mk.injEq, List.not_mem_nil, or_false] at hmem
    omega
  · intro f hn
    cases hn with
    | dispose h => cases h
    | job h => cases h
    | work h => cases h
  · intro e he
    cases he

/-- A server begins with its announcement, and has heard nothing. -/
theorem opening_course (accepted : Registry String Identity) :
    Course (service settings g state) [announcement g.route (some g.token)] []
      (opening settings g state accepted minted)
      { events := [.said (announcement g.route (some g.token))] } where
  run := Service.Run.tail .refl (.say .routeAnnounce none)
  read c := by simp [opening, Packet.Reader.remaining]
  heard := rfl
  delivered := rfl
  said := rfl
  taken := rfl
  passed := rfl
  written := rfl

/-- What starting a server leads to, unless its token is refused. -/
theorem start_cases
    (hs : start { clock, minted } settings state tree = (.ok (s, parts), tree')) :
    ∃ accepted g, g.route ≠ uplinkRoute ∧
      (s, parts) = launch (blank clock accepted (minted + 2)) settings g state := by
  unfold start at hs
  split at hs
  · cases hs
  · rename_i x g t hprepare
    unfold prepare at hprepare
    split at hprepare
    · cases hprepare
    · rename_i haccept
      split at hprepare
      · cases hprepare
        obtain ⟨accepted, rfl, hg⟩ := acceptOwn_ok haccept
        exact ⟨accepted, g, hg, (Except.ok.inj (Prod.mk.inj hs).1).symm⟩
      · cases hprepare

/-- A server that nobody but its uplink turns to writes its announcement and one answer to each
request for its own service that came from elsewhere, and nothing else. The bytes of the uplink
come in pieces of any kind, between packets there may be other text, and the fibers take their
turns in any order; they all come to rest. -/
theorem upstream_answered (hi : settings.statusInterval = none)
    (hs : start { clock, minted } settings state tree = (.ok (s, parts), tree'))
    (hr : Turns Agent.handler parts.link s b u) :
    (∃ v, Turns Agent.handler parts.link u [] v ∧ v.AtRest Agent.handler) ∧
      (u.AtRest Agent.handler → ∃ link sent token as, u.link? parts.link = some link ∧
        link.written = sent.flatMap line ∧ sent ~ announcement parts.route token :: as ∧
        List.Forall₂ (Reply parts.route)
          ((Packet.envelopesOf (Packet.grammar Packet.maxLine b)).filter (Wants parts.route ·))
          as) := by
  obtain ⟨accepted, g, hg, hlaunch⟩ := start_cases hs
  have hserves : Serves (launch (blank clock accepted (minted + 2)) settings g state).1
      (opening settings g state accepted (minted + 2)) := launch_serves hi hg accepted
  rw [launch_eq hi] at hlaunch hserves
  cases hlaunch
  obtain ⟨o, r, ho, hc⟩ := serves_turns hr hserves (opening_course accepted)
  refine ⟨ho.exists_rest, fun hrest => ?_⟩
  have hsound := service_sound settings g state
  have hclear : (service settings g state).Clear := ⟨rfl, fun j hj => by cases hj⟩
  obtain ⟨sent, as, hwritten, hperm, has⟩ :=
    hc.outcome ho.sound (ho.quiet hrest) hsound hclear rfl
  have hown : o.own = g.route :=
    ho.sound.route.symm.trans (hc.run.balanced hsound).2.route
  have hnews : [announcement g.route (some g.token)].filter (Leaves o.own ·)
      = [announcement g.route (some g.token)] := List.filter_eq_self.2 fun n hn => by
    rw [List.mem_singleton.1 hn]
    exact decide_eq_true (.inl rfl)
  rw [hnews, List.singleton_append] at hperm
  rw [hown, List.nil_append] at has
  refine ⟨o.link, sent, some g.token, as, ?_, hwritten, hperm, has⟩
  simp [Session.link?, ho.shows.links]

/-- The settings of a server whose route is that of the connection `x`. -/
def booth : Settings where
  token := "h.eyJjdHlwZSI6ImNvbm5zZXJ2ZXIiLCJjb25uIjoieCJ9.s"
  identity := { clientType := some "connserver", connection := some "x" }

def opened? : Option (Session Agent × Parts) := (start {} booth {} ⟨default⟩).1.toOption

theorem opened?_isSome : opened?.isSome := by decide +kernel

def opened : Session Agent × Parts := opened?.get opened?_isSome

def probe (id source route : Option String) : Envelope :=
  { command := some "ping", requestId := id, source, route }

/-- Other text, two probes and one that is cut in two, a packet that holds no envelope, a malformed
command, and all kinds of envelopes that are not answered. -/
def calls : List Bytes := [
  Bytes.ofText "login: " ++ [10] ++ line (probe (some "1") none none) ++
    Packet.marker ++ Bytes.ofText "\x7bx\x7d" ++ [10] ++
    line (probe (some "2") (some "proc:a") (some "conn:x")) ++
    line (probe (some "5") (some "proc:a") (some "conn:y")) ++
    line (probe (some "6") (some "conn:x") none) ++ (line (probe (some "3") none none)).take 9,
  (line (probe (some "3") none none)).drop 9 ++
    line { command := some "dispose", requestId := some "4", source := some "proc:b" } ++
    line { (Envelope.ofCommand (.dispose "r")) with requestId := some "7" } ++
    line { (Envelope.ofCommand .routeAnnounce) with requestId := some "8" } ++
    line { responseId := some "1" } ++ line (probe none none none)]

def served : Session Agent :=
  Session.run Agent.handler 300 none
    (calls.foldl (fun s b => s.receiveUplink opened.2.link (.data b)) opened.1)

theorem calls_answered : booth.statusInterval = none ∧
    start {} booth {} ⟨default⟩
      = (.ok (opened.1, opened.2), (start {} booth ({} : Agent) ⟨default⟩).2) ∧
    Turns Agent.handler opened.2.link opened.1 calls.flatten served ∧
    served.AtRest Agent.handler ∧
    ((Packet.envelopesOf (Packet.grammar Packet.maxLine calls.flatten)).filter
      (Wants opened.2.route ·)).map (·.requestId) = [some "1", some "2", some "3", some "4"] ∧
    ∃ link sent token as, served.link? opened.2.link = some link ∧
      link.written = sent.flatMap line ∧ sent ~ announcement opened.2.route token :: as ∧
      List.Forall₂ (Reply opened.2.route)
        ((Packet.envelopesOf (Packet.grammar Packet.maxLine calls.flatten)).filter
          (Wants opened.2.route ·)) as := by
  have hstart : start {} booth {} ⟨default⟩
      = (.ok (opened.1, opened.2), (start {} booth ({} : Agent) ⟨default⟩).2) := by
    have hsome : (start {} booth ({} : Agent) ⟨default⟩).1.toOption = some opened :=
      (Option.some_get opened?_isSome).symm
    refine Prod.ext ?_ rfl
    cases h : (start {} booth ({} : Agent) ⟨default⟩).1 with
    | error f =>
      rw [h] at hsome
      cases hsome
    | ok a =>
      rw [h] at hsome
      cases hsome
      rfl
  have hturns : Turns Agent.handler opened.2.link opened.1 calls.flatten served := by
    have hr := (Session.turns_input Agent.handler opened.2.link opened.1 calls).append
      (Session.turns_run Agent.handler opened.2.link 300 none _)
    rwa [List.append_nil] at hr
  have hrest : served.AtRest Agent.handler := Session.atRest_of_all (by decide +kernel)
  exact ⟨rfl, hstart, hturns, hrest, by decide +kernel,
    (upstream_answered rfl hstart hturns).2 hrest⟩

end Switchboard.Server
