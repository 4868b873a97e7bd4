import Switchboard.Proofs.Exchange.Dispatch
import Switchboard.Proofs.Feed.Endings

/-! Which routes a client can bring to an end. The router lets nobody touch the bindings or the
announcements of others, but it passes on whatever a client writes: who names the route of somebody
else can retract it at the uplink and have it disposed of, and nobody else does. -/
namespace Switchboard

variable {σ : Type} {x y : Exchange σ} {f : Feed σ} {ph : Phase} {g : Grant} {h : Handing}
  {r : Router} {route source id via : String} {m w : Envelope} {heard fed : List Envelope}
  {queue : Queue} {p : Nat} {u : Pump}

namespace Grant

/-- A stamp makes nothing of an envelope that it is not already, to the routes of others. -/
theorem ends_stamp (hr : route ≠ g.route) : (g.stamp w).Ends route ↔ w.Ends route := by
  have hd : (g.stamp w).disposed? = w.disposed? := rfl
  have hs : (g.stamp w).source = some route ↔ w.source = some route := by
    cases hw : w.source with
    | none => simp [stamp, hw, Ne.symm hr]
    | some s => simp [stamp, hw]
  unfold Envelope.Ends Envelope.Retracts
  rw [hd, hs]
  rfl

end Grant

namespace Exchange

/-- What is announced through one route stays announced, whatever is routed from another. -/
theorem announced_noted (ha : r.announced.get? id = some via) (hv : via ≠ source) :
    ((noted r (sourced m source) source).announced.get? id).isSome := by
  rw [sourced_eq]
  unfold noted
  split
  · simp [ha]
  · split
    · rw [get?_noteAnnounced r rfl]
      split <;> simp [ha]
    · split
      · rw [get?_noteUnannounced r rfl, if_neg (by simp [ha, hv]), ha]
        rfl
      · simp [ha]

theorem announced_forward (hu : x.router.pumps[p]? = some u)
    (ha : x.router.announced.get? id = some via) (hv : via ≠ u.source) :
    ((x.forward p).1.router.announced.get? id).isSome := by
  rw [forward_eq hu]
  cases u.held with
  | none => simp [ha]
  | some m =>
    simp only [route_fst, router_handAll]
    exact announced_noted (r := (x.setPump p none).router) ha hv

end Exchange

/-- A running service turns to a disposal exactly if that is what it takes in. -/
theorem Service.dispatch_disposes {s : Service σ} (hl : s.loop = .running) :
    (s.dispatch m).loop = .disposing route ↔ m.disposed? = some route := by
  have hd := Service.disposing_dispatch (s := s) (by rw [hl]; rfl) m
  constructor
  · intro he
    rw [← hd, he]
    rfl
  · intro he
    rw [he] at hd
    unfold Loop.disposing? at hd
    split at hd
    · rw [← Option.some.inj hd]
      assumption
    · cases hd

namespace Feed

/-- What a connection can do to the routes of others. -/
structure Confined (f : Feed σ) (g : Grant) : Prop where
  /-- Of its own accord it ends no route but its own. -/
  own : ∀ h, .handed h ∈ f.events → ∀ route, h.envelope.Ends route → route = g.route
  /-- What its pump hands out is what the client wrote, and it ends the route of somebody else only
  if the client named that. -/
  written : ∀ p u, f.exchange.router.pumps[p]? = some u → u.endpoint = f.peer →
    ∀ h ∈ f.exchange.forwardHandings p, ∃ w ∈ f.decoded.tail, h.envelope = g.stamp w ∧
      ∀ route, route ≠ g.route → (h.envelope.Ends route ↔ w.Ends route)
  /-- Nothing that the client wrote removes a binding, or an announcement of somebody else. -/
  tables : ∀ p u, f.exchange.router.pumps[p]? = some u → u.endpoint = f.peer →
    (f.exchange.forward p).1.router.routes = f.exchange.router.routes ∧
      ∀ id via, f.exchange.router.announced.get? id = some via → via ≠ g.route →
        ((f.exchange.forward p).1.router.announced.get? id).isSome
  /-- But the uplink is told of every route that is retracted, whosever it is. -/
  retracted : f.exchange.router.closed = false → ∀ w,
    w.command = some Command.routeUnannounceName →
      Exchange.routeHandings f.exchange.router (g.stamp w) g.route =
        Exchange.uplinkHandings f.exchange.router (g.stamp w)
  /-- And a service disposes of any route that it is told to. -/
  disposed : ∀ (s : Service σ) w route, s.loop = .running →
    ((s.dispatch (g.stamp w)).loop = .disposing route ↔ w.disposed? = some route)

namespace Sound

/-- What the pump of the peer holds, the client wrote after the first envelope. -/
theorem held_written (hs : Sound x f (.bound g) heard fed queue)
    (hr : f.routed ++ u.held.toList.map (·, g.route) = fed.map fun m => (g.stamp m, g.route))
    (hm : u.held = some m) : ∃ w ∈ f.decoded.tail, m = g.stamp w := by
  obtain ⟨first, token, rfl, -⟩ := hs.hearing.granted g rfl
  obtain ⟨later, hlater⟩ := hs.said.front
  have hall : f.decoded = first :: (fed ++ queue.items ++ later) := by
    rw [decoded, Event.received, ← hlater]
    simp
  have hmem : (m, g.route) ∈ fed.map fun m => (g.stamp m, g.route) := by
    rw [← hr, hm]
    simp
  obtain ⟨w, hw, he⟩ := List.mem_map.1 hmem
  refine ⟨w, ?_, (congrArg Prod.fst he).symm⟩
  rw [hall, List.tail_cons]
  exact List.mem_append_left _ (List.mem_append_left _ hw)

/-- What the pump of the peer hands out is what the client wrote, with its stamp. -/
theorem handed_written (hs : Sound x f (.bound g) heard fed queue)
    (hu : f.exchange.router.pumps[p]? = some u) (hk : u.endpoint = f.peer)
    (hh : h ∈ f.exchange.forwardHandings p) :
    ∃ w ∈ f.decoded.tail, h.envelope = g.stamp w := by
  obtain ⟨g', hph, -, hsource, -, hr⟩ := hs.pump hu hk
  obtain rfl : g = g' := Phase.bound.inj hph
  rw [Exchange.forwardHandings_eq hu] at hh
  cases hm : u.held with
  | none => simp [hm] at hh
  | some m =>
    obtain ⟨w, hw, rfl⟩ := hs.held_written hr hm
    rw [hm] at hh
    refine ⟨w, hw, ?_⟩
    rw [Exchange.envelope_of_mem_routeHandings hh, Exchange.sourced_of_source rfl]

end Sound

/-- In every reachable state, a connection ends a route that it was not granted only where the client
has written that it be ended, and then it does. -/
theorem ends_as_written (hx : x.Tidy) (h : Reachable x f) (hg : .granted g ∈ f.events) :
    Confined f g := by
  obtain ⟨ph, heard, fed, queue, hs⟩ := sound_of_reachable hx h
  have hm := modest_of_reachable hx h
  have hgrants : ph.grant? = some g := by
    rwa [Event.granted_mem_iff, hs.course.grants, Option.mem_toList] at hg
  have hbound {p : Nat} {u : Pump} (hu : f.exchange.router.pumps[p]? = some u)
      (hk : u.endpoint = f.peer) : ph = .bound g ∧ u.source = g.route := by
    obtain ⟨g', rfl, -, hsource, -⟩ := hs.pump hu hk
    obtain rfl : g' = g := Option.some.inj hgrants
    exact ⟨rfl, hsource⟩
  constructor
  case own =>
    intro a ha route hends
    obtain ⟨g', hg', rfl⟩ := hm.handed a ha route hends
    rw [Event.granted_mem_iff, hs.course.grants, hgrants, Option.toList_some,
      List.mem_singleton] at hg'
    rw [hg']
  case written =>
    intro p u hu hk a ha
    obtain ⟨rfl, -⟩ := hbound hu hk
    obtain ⟨w, hw, he⟩ := hs.handed_written hu hk ha
    exact ⟨w, hw, he, fun route hr => by rw [he, Grant.ends_stamp hr]⟩
  case tables =>
    intro p u hu hk
    obtain ⟨-, hsource⟩ := hbound hu hk
    exact ⟨(Exchange.calm_forward p).routes,
      fun id via ha hv => Exchange.announced_forward hu ha (hsource ▸ hv)⟩
  case retracted =>
    intro hopen w hw
    exact Exchange.routeHandings_of_isControl (.inr hw) rfl hopen (hm.granted g hg)
  case disposed =>
    intro s w route hl
    exact Service.dispatch_disposes hl

/-- A router with an uplink, somebody under the route `b`, and a service for what names no route. -/
def parlour : Exchange Unit where
  router := {
    accepted := ({} : Registry String Identity).insert "t" {}
    uplink := some { endpoint := 0, pump := 0 }
    routes := (({} : Registry String Binding).insert "b" { endpoint := 1, pump := 1 }).insert
      "desk" { endpoint := 2, isLocal := true, pump := 2 }
    defaultRoute := some "desk"
    pumps := [{ source := uplinkRoute, endpoint := 0 }, { source := "b", endpoint := 1 },
      { source := "desk", endpoint := 2 }] }
  endpoints := [.mailbox { complaint := "gone" }, .peer {},
    .service { route := "desk", loop := .running, state := () }]

theorem parlour_tidy : parlour.Tidy where
  routes q b hb := by
    have hq : q = "desk" ∨ q = "b" := by
      by_contra hne
      rw [not_or] at hne
      simp only [parlour, Registry.get?_insert, hne.1, hne.2, if_false] at hb
      cases hb
    rcases hq with rfl | rfl <;> cases hb <;> rfl
  uplink _ hb := by
    cases hb
    rfl
  pumps := by simp [parlour]

/-- A client that is admitted says that `b` is gone, and asks to dispose of it. -/
def meddling : Bytes :=
  knock ++
    [0, 0, 0, 34, 130, 167, 99, 111, 109, 109, 97, 110, 100, 175, 114, 111, 117, 116, 101, 117, 110,
      97, 110, 110, 111, 117, 110, 99, 101, 166, 115, 111, 117, 114, 99, 101, 161, 98] ++
    [0, 0, 0, 33, 130, 167, 99, 111, 109, 109, 97, 110, 100, 167, 100, 105, 115, 112, 111, 115, 101,
      164, 100, 97, 116, 97, 129, 167, 114, 111, 117, 116, 101, 105, 100, 161, 98]

/-- Its pump has routed what it said first, and holds the other. -/
def meddled? : Option (Feed Unit) :=
  acts? { exchange := parlour.meet, served := .new 3 (.ofSeconds 5) 100 }
    [.party (.arrive (.data meddling)), .party .read, .party .read, .party .read, .party .read,
      .party .service, .party .service, .party .service, .party .service, .party .service,
      .party .service, .party .service, .fetch 3, .forward 3, .fetch 3]

theorem meddled?_isSome : meddled?.isSome := by decide +kernel

def meddled : Feed Unit := meddled?.get meddled?_isSome

theorem meddled_reachable : Reachable parlour meddled :=
  reachable_of_acts? (.start _ _) (Option.some_get meddled?_isSome).symm

theorem meddled_granted : ∃ g, .granted g ∈ meddled.events ∧ g.route ≠ "b" := by
  have hsome : (meddled.events.filterMap Event.grant?).head?.isSome := by decide +kernel
  have hne : ((meddled.events.filterMap Event.grant?).head?.map Grant.route).all (· ≠ "b") := by
    decide +kernel
  obtain ⟨g, hg⟩ := Option.isSome_iff_exists.1 hsome
  rw [hg] at hne
  exact ⟨g, Event.granted_mem_iff.2 (List.mem_of_head? hg), by simpa using hne⟩

theorem meddled_confined : parlour.Tidy ∧ Reachable parlour meddled ∧
    (meddled.exchange.forwardHandings 3).map (·.endpoint) = [2] ∧
    ∃ g, .granted g ∈ meddled.events ∧ Confined meddled g := by
  obtain ⟨g, hg, -⟩ := meddled_granted
  exact ⟨parlour_tidy, meddled_reachable, by decide +kernel, g, hg,
    ends_as_written parlour_tidy meddled_reachable hg⟩

/-- A connection can end the route of another that stays bound: the uplink is told that it is gone,
and the service for what names no route disposes of it. -/
theorem exists_meddling : ∃ (x : Exchange Unit) (f : Feed Unit) (g : Grant) (b : Binding),
    x.Tidy ∧ Reachable x f ∧ .granted g ∈ f.events ∧ g.route ≠ "b" ∧
      (f.exchange.router.routes.get? "b").isSome ∧ f.exchange.router.uplink = some b ∧
      (∃ m ∈ f.exchange.incoming b.endpoint, m.Retracts "b") ∧
      ∃ s, ((f.exchange.forward 3).1.endpoints[2]?.bind (·.service?)).bind (·.receive?) = some s ∧
        s.loop = .disposing "b" := by
  obtain ⟨g, hg, hne⟩ := meddled_granted
  have hup : (meddled.exchange.incoming 0).any
      (fun m => m.command = some Command.routeUnannounceName ∧ m.source = some "b") := by
    decide +kernel
  obtain ⟨m, hm, hr⟩ := List.any_eq_true.1 hup
  have hdown : (((meddled.exchange.forward 3).1.endpoints[2]?.bind (·.service?)).bind
      (·.receive?)).map (·.loop) = some (.disposing "b") := by
    decide +kernel
  obtain ⟨s, hs, hl⟩ := Option.map_eq_some_iff.1 hdown
  exact ⟨parlour, meddled, g, { endpoint := 0, pump := 0 }, parlour_tidy, meddled_reachable, hg, hne,
    by decide +kernel, by decide +kernel, ⟨m, hm, by simpa [Envelope.Retracts] using hr⟩, s, hs, hl⟩

end Feed

end Switchboard
