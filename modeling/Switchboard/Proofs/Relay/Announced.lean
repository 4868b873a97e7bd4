import Switchboard.Proofs.Exchange.Dispatch
import Switchboard.Proofs.Feed.Voice

/-! Announced routes and the routes that they are reached through. An entry of the table leads to
a bound route, unless it was made too late: by an announcement that was routed when the route it
came from was not bound, or not any more. Nothing removes such an entry before the route is bound
anew. -/
namespace Switchboard

namespace Router

variable {r s : Router} {id via source : String} {m : Envelope}

/-- A route is announced, and what it is reached through is not bound. -/
def Astray (r : Router) (id via : String) : Prop :=
  r.announced.get? id = some via ∧ r.routes.get? via = none

/-- An announcement of a route that comes from `via` finds `via` not bound. -/
structure Belated (r : Router) (m : Envelope) (id via : String) : Prop where
  announces : m.command = some Command.routeAnnounceName
  names : m.source.getD via = id
  other : id ≠ via
  below : via ≠ uplinkRoute
  routing : r.closed = false
  unbound : r.routes.get? via = none

theorem Astray.of_congr (h : s.Astray id via) (hr : s.routes = r.routes)
    (ha : s.announced = r.announced) : r.Astray id via := by
  unfold Astray at h ⊢
  rwa [← hr, ← ha]

theorem cancelPumpOf_eq (r : Router) (b : Option Binding) :
    ∃ pumps, r.cancelPumpOf b = { r with pumps } := by
  cases b with
  | none => exact ⟨r.pumps, rfl⟩
  | some b => exact ⟨_, rfl⟩

theorem foldl_cancelPump_eq (ps : List Nat) (r : Router) :
    ∃ pumps, ps.foldl cancelPump r = { r with pumps } := by
  induction ps generalizing r with
  | nil => exact ⟨r.pumps, rfl⟩
  | cons p ps ih =>
    obtain ⟨pumps, h⟩ := ih (r.cancelPump p)
    exact ⟨pumps, h⟩

theorem announced_register (r : Router) (route : String) (endpoint : Nat) (isLocal : Bool) :
    (r.register route endpoint isLocal).announced = r.announced := by
  obtain ⟨pumps, h⟩ := r.cancelPumpOf_eq (r.routes.get? route)
  simp [register, h]

/-- A route that is removed takes with it what is announced through it. -/
theorem announced_unregister (r : Router) (route : String) :
    (r.unregister route).announced =
      if (r.routes.get? route).isSome then r.announced.filter fun _ via => via ≠ route
      else r.announced := by
  unfold unregister
  cases r.routes.get? route <;> rfl

/-- An entry that survives a filter was there before. -/
theorem announced_of_filter {keep : String → String → Bool}
    (h : (r.announced.filter keep).get? id = some via) :
    r.announced.get? id = some via ∧ keep id via = true := by
  rw [Registry.get?_filter] at h
  exact Option.filter_eq_some_iff.1 h

theorem Astray.of_unregister {route : String} (h : (r.unregister route).Astray id via) :
    r.Astray id via := by
  obtain ⟨ha, hr⟩ := h
  rw [get?_unregister] at hr
  rw [announced_unregister] at ha
  cases hb : r.routes.get? route with
  | none =>
    rw [hb] at ha
    refine ⟨ha, ?_⟩
    by_cases hv : via = route
    · exact hv ▸ hb
    · rwa [if_neg hv] at hr
  | some b =>
    rw [hb, Option.isSome_some, if_pos rfl] at ha
    obtain ⟨ha, hv⟩ := announced_of_filter ha
    rw [if_neg (of_decide_eq_true hv)] at hr
    exact ⟨ha, hr⟩

theorem Astray.of_register {route : String} {endpoint : Nat} {isLocal : Bool}
    (h : (r.register route endpoint isLocal).Astray id via) : r.Astray id via := by
  obtain ⟨ha, hr⟩ := h
  rw [announced_register] at ha
  rw [get?_register] at hr
  by_cases hv : via = route
  · rw [if_pos hv] at hr
    cases hr
  · rw [if_neg hv] at hr
    exact ⟨ha, hr⟩

theorem Astray.of_retract {route : String} (h : (r.retract route).Astray id via) :
    r.Astray id via := ⟨(announced_of_filter h.1).1, h.2⟩

end Router

open Relay (Operation)

/-- No operation on the tables leads an announced route astray. -/
theorem Router.Astray.of_table {r : Router} {id via : String} {op : Operation}
    (h : (op.table r).Astray id via) : r.Astray id via := by
  cases op with
  | register route endpoint isLocal => exact Astray.of_register h
  | unregister route => exact h.of_unregister
  | withdraw route token =>
    cases token with
    | none => exact h.of_retract
    | some token => exact Astray.of_congr (r := r) h.of_retract rfl rfl
  | setUplink endpoint =>
    obtain ⟨pumps, hp⟩ := r.cancelPumpOf_eq r.uplink
    refine h.of_congr ?_ ?_ <;> simp [Operation.table, setUplink, hp]
  | clearUplink =>
    obtain ⟨pumps, hp⟩ := r.cancelPumpOf_eq r.uplink
    refine h.of_congr ?_ ?_ <;> simp [Operation.table, clearUplink, hp]
  | setDefault route => exact h.of_congr rfl rfl
  | accept accepted minted => exact h.of_congr rfl rfl
  | shutdown =>
    obtain ⟨pumps, hp⟩ := foldl_cancelPump_eq r.boundPumps r
    refine h.of_congr ?_ ?_ <;> simp only [Operation.table, shutdown, hp] <;> split <;> rfl

namespace Exchange

variable {σ : Type} {x y : Exchange σ} {r : Router} {id via source : String} {m : Envelope}

theorem router_route (x : Exchange σ) (m : Envelope) (source : String) :
    (x.route m source).1.router = noted x.router (sourced m source) source := by
  rw [route_fst, router_handAll]
  rfl

/-- Routing leads an announced route astray only by an announcement that comes too late. -/
theorem astray_of_noted (h : (noted r (sourced m source) source).Astray id via) :
    r.Astray id via ∨ source = via ∧ r.Belated m id via := by
  rw [sourced_eq] at h
  obtain ⟨ha, hr⟩ := h
  have hroutes : (noted r { m with source := some (m.source.getD source) } source).routes
      = r.routes := by rw [tables_noted]
  rw [hroutes] at hr
  unfold noted at ha
  split at ha
  · exact .inl ⟨ha, hr⟩
  rename_i hopen
  rw [not_or] at hopen
  split at ha
  · rename_i hc
    rw [get?_noteAnnounced r rfl] at ha
    split at ha
    · rename_i hid
      obtain rfl : source = via := Option.some.inj ha
      exact .inr ⟨rfl, hc, Option.some.inj hid.1, hid.2, hopen.2,
        Bool.eq_false_of_not_eq_true hopen.1, hr⟩
    · exact .inl ⟨ha, hr⟩
  · split at ha
    · rw [get?_noteUnannounced r rfl] at ha
      split at ha
      · cases ha
      · exact .inl ⟨ha, hr⟩
    · exact .inl ⟨ha, hr⟩

/-- Every announcement that comes too late leads its route astray. -/
theorem astray_of_belated (h : x.router.Belated m id via) :
    (x.route m via).1.router.Astray id via := by
  have hn : noted x.router (sourced m via) via
      = x.router.noteAnnounced (m.source.getD via) via := by
    simp [noted, sourced_eq, h.routing, h.below, h.announces]
  rw [router_route, hn, h.names]
  refine ⟨?_, ?_⟩
  · simp [Router.noteAnnounced, h.other]
  · rw [tables_noteAnnounced]
    exact h.unbound

end Exchange

namespace Routing

open Exchange

variable {σ : Type} {x y z : Exchange σ} {id via : String}

/-- What is routed in a step, and where it comes from. -/
abbrev Routed := Option (Envelope × String)

/-- Something happens at an exchange. Taking an envelope and routing it are steps of their own. -/
inductive Step (x : Exchange σ) : Routed → Exchange σ → Prop
  | operate (op : Operation) : Step x none (op.apply x)
  | route (m : Envelope) (source : String) : Step x (some (m, source)) (x.route m source).1
  | inject (b : Bytes) (source : String) :
      Step x ((Envelope.ofJson b).toOption.map (·, source)) (x.inject b source).1
  | fetch {p : Nat} {u : Pump} {y : Exchange σ} (hu : x.router.pumps[p]? = some u)
      (hidle : u.held = none) (hy : x.fetch p = .held y) : Step x none y
  | forward {p : Nat} {u : Pump} {m : Envelope} (hu : x.router.pumps[p]? = some u)
      (hm : u.held = some m) : Step x (some (m, u.source)) (x.forward p).1
  /-- Endpoints say something, take what was handed to them, come or go. -/
  | aside {y : Exchange σ} (h : y.router = x.router) : Step x none y

/-- A state in the course of a run, with what is routed in it. -/
structure Moment (σ : Type) where
  before : Exchange σ
  routed : Routed

inductive Run : Exchange σ → List (Moment σ) → Exchange σ → Prop
  | nil (x : Exchange σ) : Run x [] x
  | cons {x y z : Exchange σ} {t : Routed} {log : List (Moment σ)} (h : Step x t y)
      (hr : Run y log z) : Run x (⟨x, t⟩ :: log) z

/-- The moment at which an announcement is routed too late. -/
def Moment.Slip (t : Moment σ) (id via : String) : Prop :=
  ∃ m, t.routed = some (m, via) ∧ t.before.router.Belated m id via

theorem router_fetch {p : Nat} {u : Pump} (hu : x.router.pumps[p]? = some u)
    (hy : x.fetch p = .held y) :
    y.router.routes = x.router.routes ∧ y.router.announced = x.router.announced := by
  obtain ⟨e, rest, he, m, hm, rfl⟩ := fetch_cases hu hy
  exact ⟨rfl, rfl⟩

/-- An entry that leads astray after a step did so before it, or the step is a slip. -/
theorem Step.astray {t : Routed} (h : Step x t y) (ha : y.router.Astray id via) :
    x.router.Astray id via ∨ Moment.Slip ⟨x, t⟩ id via := by
  have routed {z : Exchange σ} {m : Envelope} {source : String} {t : Routed}
      (hz : z.router.routes = x.router.routes ∧ z.router.announced = x.router.announced ∧
        z.router.closed = x.router.closed) (ht : t = some (m, source))
      (ha : (z.route m source).1.router.Astray id via) :
      x.router.Astray id via ∨ Moment.Slip ⟨x, t⟩ id via := by
    rw [router_route] at ha
    rcases astray_of_noted ha with ha | ⟨rfl, hl⟩
    · exact .inl (ha.of_congr hz.1 hz.2.1)
    · exact .inr ⟨m, ht, hl.announces, hl.names, hl.other, hl.below, hz.2.2 ▸ hl.routing,
        hz.1 ▸ hl.unbound⟩
  cases h with
  | operate op =>
    rw [Relay.router_apply] at ha
    exact .inl ha.of_table
  | route m source => exact routed ⟨rfl, rfl, rfl⟩ rfl ha
  | inject b source =>
    rw [Exchange.inject] at ha
    cases hb : Envelope.ofJson b with
    | error e =>
      rw [hb] at ha
      exact .inl ha
    | ok m =>
      rw [hb] at ha
      exact routed ⟨rfl, rfl, rfl⟩ rfl ha
  | fetch hu hidle hy =>
    obtain ⟨hr, hn⟩ := router_fetch hu hy
    exact .inl (ha.of_congr hr hn)
  | @forward p u m hu hm =>
    rw [forward_eq hu, hm] at ha
    exact routed (z := x.setPump p none) ⟨rfl, rfl, rfl⟩ rfl ha
  | aside h => exact .inl (h ▸ ha)

/-- An entry that leads astray at the end of a run did so all along, or ever since a slip. -/
theorem Run.astray {log : List (Moment σ)} (h : Run x log y) (ha : y.router.Astray id via) :
    (x.router.Astray id via ∧ ∀ u ∈ log, u.before.router.Astray id via) ∨
      ∃ earlier t later, log = earlier ++ t :: later ∧ t.Slip id via ∧
        ∀ u ∈ later, u.before.router.Astray id via := by
  induction h with
  | nil x => exact .inl ⟨ha, fun _ hu => absurd hu List.not_mem_nil⟩
  | @cons x y z t log hs hr ih =>
    rcases ih ha with ⟨hy, hlog⟩ | ⟨earlier, u, later, rfl, hu, hlater⟩
    · rcases hs.astray hy with hx | hslip
      · exact .inl ⟨hx, List.forall_mem_cons.2 ⟨hx, hlog⟩⟩
      · exact .inr ⟨[], ⟨x, t⟩, log, rfl, hslip, hlog⟩
    · exact .inr ⟨⟨x, t⟩ :: earlier, u, later, rfl, hu, hlater⟩

/-- In every state that is reached from an empty router, an announced route is reached through one
that is bound, or it was announced too late and has led astray ever since. -/
theorem announced_bound_or_belated {log : List (Moment σ)} (h : Run x log y)
    (hx : x.router = {}) (ha : y.router.announced.get? id = some via) :
    (y.router.routes.get? via).isSome ∨
      ∃ earlier t later, log = earlier ++ t :: later ∧ t.Slip id via ∧
        y.router.Astray id via ∧ ∀ u ∈ later, u.before.router.Astray id via := by
  cases hb : y.router.routes.get? via with
  | some b => exact .inl rfl
  | none =>
    have hy : y.router.Astray id via := ⟨ha, hb⟩
    rcases h.astray hy with ⟨hastray, -⟩ | ⟨earlier, t, later, hlog, ht, hlater⟩
    · rw [hx] at hastray
      exact absurd hastray.1 (by simp [Registry.get?, Registry.find])
    · exact .inr ⟨earlier, t, later, hlog, ht, hy, hlater⟩

/-- An endpoint that has something to announce, before anything is bound. -/
def herald : Exchange Unit where
  endpoints := [.mailbox {
    complaint := "closed"
    outbox.items := [{ Envelope.ofCommand .routeAnnounce with source := some "x" }] }]

/-- The pump has taken the announcement when the route is removed, and routes it after that. -/
theorem herald_belated : ∃ log y, Run herald log y ∧ herald.router = {} ∧
    y.router.announced.get? "x" = some "a" ∧
      ((y.router.routes.get? "a").isSome ∨
        ∃ earlier t later, log = earlier ++ t :: later ∧ t.Slip "x" "a" ∧
          y.router.Astray "x" "a" ∧ ∀ u ∈ later, u.before.router.Astray "x" "a") := by
  have h : Run herald _ _ :=
    .cons (.operate (.register "a" 0 false)) <|
    .cons (.fetch (p := 0) rfl rfl rfl) <|
    .cons (.operate (.unregister "a")) <|
    .cons (.forward (p := 0) rfl rfl) <|
    .nil _
  exact ⟨_, _, h, rfl, rfl, announced_bound_or_belated h rfl rfl⟩

/-- Not every route that is announced is reached through a bound one: a route that is not bound any
more can still have announcements of its own routed. -/
theorem exists_astray : ∃ (x : Exchange Unit) (log : List (Moment Unit)) (y : Exchange Unit),
    x.router = {} ∧ Run x log y ∧ ∃ id via, y.router.announced.get? id = some via ∧
      y.router.routes.get? via = none := by
  have h : Run ({} : Exchange Unit) _ _ :=
    .cons (.operate (.register "a" 0 false)) <|
    .cons (.operate (.unregister "a")) <|
    .cons (.route { Envelope.ofCommand .routeAnnounce with source := some "x" } "a") <|
    .nil _
  exact ⟨_, _, _, rfl, h, "x", "a", rfl, rfl⟩

end Routing

end Switchboard
