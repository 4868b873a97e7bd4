import Switchboard.Proofs.Exchange.Handing

/-! Where an envelope goes, and what else routing it changes. The destination depends on four
tables and on the source; `Leads` says which of them decides. -/
namespace Switchboard

/-- By the tables of `r`, an envelope to a route that comes from `source` goes to a binding; the
name is that under which the binding is found. -/
inductive Leads (r : Router) (source : String) : Option String → String → Binding → Prop
  | uplink {b : Binding} (hs : source ≠ uplinkRoute) (hu : r.uplink = some b) :
      Leads r source (some uplinkRoute) uplinkRoute b
  | registered {route : String} {b : Binding} (hr : route ≠ uplinkRoute)
      (hb : r.routes.get? route = some b) : Leads r source (some route) route b
  | through {route via : String} {b : Binding} (hr : route ≠ uplinkRoute)
      (hn : r.routes.get? route = none) (hv : r.announced.get? route = some via)
      (hb : r.routes.get? via = some b) : Leads r source (some route) via b
  /-- The route is unknown, or it was announced by a route that is gone. -/
  | unknown {route : String} {b : Binding} (hr : route ≠ uplinkRoute)
      (hn : r.routes.get? route = none)
      (hv : ∀ via, r.announced.get? route = some via → r.routes.get? via = none)
      (hs : source ≠ uplinkRoute) (hu : r.uplink = some b) :
      Leads r source (some route) uplinkRoute b
  | default {route : String} {b : Binding} (hd : r.defaultRoute = some route)
      (hb : r.routes.get? route = some b) : Leads r source none route b
  | noDefault {b : Binding}
      (hd : ∀ route, r.defaultRoute = some route → r.routes.get? route = none)
      (hs : source ≠ uplinkRoute) (hu : r.uplink = some b) : Leads r source none uplinkRoute b

namespace Router

variable {r : Router} {route : Option String} {source name : String} {b : Binding}

theorem upward_eq_some_iff :
    r.upward source = some (name, b) ↔
      source ≠ uplinkRoute ∧ name = uplinkRoute ∧ r.uplink = some b := by
  unfold upward
  split
  · simp_all
  · cases r.uplink <;> simp_all [eq_comm]

theorem leads_of_resolve? (h : r.resolve? route source = some (name, b)) :
    Leads r source route name b := by
  cases route with
  | none =>
    cases hd : r.defaultRoute with
    | none =>
      obtain ⟨hs, rfl, hu⟩ : source ≠ uplinkRoute ∧ name = uplinkRoute ∧ r.uplink = some b := by
        simpa [resolve?, hd, upward_eq_some_iff] using h
      exact .noDefault (by simp [hd]) hs hu
    | some d =>
      cases hb : r.routes.get? d with
      | none =>
        obtain ⟨hs, rfl, hu⟩ : source ≠ uplinkRoute ∧ name = uplinkRoute ∧ r.uplink = some b := by
          simpa [resolve?, hd, registered, hb, upward_eq_some_iff] using h
        exact .noDefault (by simp [hd, hb]) hs hu
      | some b' =>
        obtain ⟨rfl, rfl⟩ : d = name ∧ b' = b := by
          simpa [resolve?, hd, registered, hb] using h
        exact .default hd hb
  | some q =>
    by_cases hq : q = uplinkRoute
    · subst hq
      obtain ⟨hs, rfl, hu⟩ : source ≠ uplinkRoute ∧ name = uplinkRoute ∧ r.uplink = some b := by
        simpa [resolve?, upward_eq_some_iff] using h
      exact .uplink hs hu
    · cases hb : r.routes.get? q with
      | some b' =>
        obtain ⟨rfl, rfl⟩ : q = name ∧ b' = b := by
          simpa [resolve?, hq, registered, hb] using h
        exact .registered hq hb
      | none =>
        cases hv : r.announced.get? q with
        | none =>
          obtain ⟨hs, rfl, hu⟩ :
              source ≠ uplinkRoute ∧ name = uplinkRoute ∧ r.uplink = some b := by
            simpa [resolve?, hq, registered, hb, through, hv, upward_eq_some_iff] using h
          exact .unknown hq hb (by simp [hv]) hs hu
        | some via =>
          cases hw : r.routes.get? via with
          | none =>
            obtain ⟨hs, rfl, hu⟩ :
                source ≠ uplinkRoute ∧ name = uplinkRoute ∧ r.uplink = some b := by
              simpa [resolve?, hq, registered, hb, through, hv, hw, upward_eq_some_iff] using h
            exact .unknown hq hb (by simp [hv, hw]) hs hu
          | some b' =>
            obtain ⟨rfl, rfl⟩ : via = name ∧ b' = b := by
              simpa [resolve?, hq, registered, hb, through, hv, hw] using h
            exact .through hq hb hv hw

theorem resolve?_of_leads (h : Leads r source route name b) :
    r.resolve? route source = some (name, b) := by
  cases h with
  | uplink hs hu => simp [resolve?, upward, hs, hu]
  | registered hr hb => simp [resolve?, hr, registered, hb]
  | through hr hn hv hb => simp [resolve?, hr, Router.registered, hn, Router.through, hv, hb]
  | @unknown q _ hr hn hv hs hu =>
    cases ha : r.announced.get? q with
    | none => simp [resolve?, hr, registered, hn, through, ha, upward, hs, hu]
    | some via => simp [resolve?, hr, registered, hn, through, ha, hv via ha, upward, hs, hu]
  | default hd hb => simp [resolve?, hd, registered, hb]
  | noDefault hd hs hu =>
    cases hq : r.defaultRoute with
    | none => simp [resolve?, hq, upward, hs, hu]
    | some q => simp [resolve?, hq, registered, hd q hq, upward, hs, hu]

theorem resolve?_eq_some_iff :
    r.resolve? route source = some (name, b) ↔ Leads r source route name b :=
  ⟨leads_of_resolve?, resolve?_of_leads⟩

end Router

namespace Exchange

variable {σ : Type} {x y z : Exchange σ} {m : Envelope} {source name : String} {b : Binding}

/-- `y` is `x` after an envelope was handed to one endpoint, or to none; the routers may differ. -/
structure Handed (target : Option Nat) (m : Envelope) (x y : Exchange σ) : Prop where
  endpoints : ∀ j : Nat,
    y.endpoints[j]? = x.endpoints[j]?.map fun e => if target = some j then e.holding m else e
  minted : y.minted = x.minted

theorem handed_none (h : y.endpoints = x.endpoints) (hm : y.minted = x.minted) :
    Handed none m x y := ⟨by simp [h], hm⟩

theorem handed_modify (h : y.endpoints = x.endpoints) (hm : y.minted = x.minted) (k : Nat) :
    Handed (some k) m x (y.modify k (·.holding m)) := by
  refine ⟨fun j => ?_, hm⟩
  by_cases hj : k = j
  · subst j
    simp [modify, h]
  · simp [modify, h, hj]

theorem handed_uplink (f : Router → Router) :
    Handed (x.router.uplink.map (·.endpoint)) m x
      ((x.mapRouter f).handAll (uplinkHandings x.router m)) := by
  cases hu : x.router.uplink with
  | none =>
    simpa [uplinkHandings, hu] using handed_none (m := m) (x := x) (y := x.mapRouter f) rfl rfl
  | some b =>
    simpa [uplinkHandings, hu] using handed_modify (x := x) (y := x.mapRouter f) rfl rfl b.endpoint

/-- What somebody is told who sends to endpoint `k`; `wrap` is applied to complaints. -/
def Told (x : Exchange σ) (k : Nat) (wrap : Error → Error) (result : Except Error Unit) : Prop :=
  ∀ e, x.endpoints[k]? = some e →
    result = if e.incoming.isOpen then .ok () else .error (wrap e.complaint)

/-- What becomes of an envelope that has a source and is routed from `source`: the exchange
after it, and what the sender is told. -/
structure Dispatched (x : Exchange σ) (m : Envelope) (source : String) (y : Exchange σ)
    (result : Except Error Unit) : Prop where
  /-- What the uplink has to say about routes is of no interest. -/
  ignored : IsControl m → source = uplinkRoute → y = x ∧ result = .ok ()
  /-- All others' news goes up, and changes one table at most. -/
  passedOn : IsControl m → source ≠ uplinkRoute →
    Handed (x.router.uplink.map (·.endpoint)) m x y ∧
      y.router = { x.router with announced := y.router.announced } ∧
      (x.router.uplink = none → result = .ok ()) ∧
      ∀ b, x.router.uplink = some b → x.Told b.endpoint id result
  announced : m.command = some Command.routeAnnounceName → source ≠ uplinkRoute → ∀ route,
    y.router.announced.get? route =
      if m.source = some route ∧ route ≠ source then some source
      else x.router.announced.get? route
  unannounced : m.command = some Command.routeUnannounceName → source ≠ uplinkRoute → ∀ route,
    y.router.announced.get? route =
      if m.source = some route ∧ x.router.announced.get? route = some source then none
      else x.router.announced.get? route
  delivered : ¬IsControl m → ∀ name b, Leads x.router source m.route name b →
    Handed (some b.endpoint) m x y ∧ y.router = x.router ∧
      x.Told b.endpoint (fun e => .routing ("route " ++ name ++ " is closed: " ++ e.text)) result
  lost : ¬IsControl m → (∀ name b, ¬Leads x.router source m.route name b) →
    y = x ∧ result = .error (.routing
      ("no route for " ++ m.route.getD "<default>" ++ " from " ++ source))

theorem told_send (x : Exchange σ) (k : Nat) (m : Envelope) : x.Told k id (x.send k m).2 := by
  intro e he
  exact send_snd he

theorem get?_noteAnnounced (r : Router) (hs : m.source.isSome) (route : String) :
    (r.noteAnnounced (m.source.getD source) source).announced.get? route =
      if m.source = some route ∧ route ≠ source then some source else r.announced.get? route := by
  obtain ⟨s, hs⟩ := Option.isSome_iff_exists.1 hs
  unfold Router.noteAnnounced
  by_cases h : s = source
  · subst s
    by_cases hr : source = route <;> simp [hs, hr, eq_comm]
  · by_cases hr : s = route
    · subst route
      simp [hs, h]
    · simp [hs, h, hr, Ne.symm hr]

theorem get?_noteUnannounced (r : Router) (hs : m.source.isSome) (route : String) :
    (r.noteUnannounced (m.source.getD source) source).announced.get? route =
      if m.source = some route ∧ r.announced.get? route = some source then none
      else r.announced.get? route := by
  obtain ⟨s, hs⟩ := Option.isSome_iff_exists.1 hs
  unfold Router.noteUnannounced
  by_cases h : r.announced.get? s = some source
  · by_cases hr : s = route
    · subst route
      simp [hs, h]
    · simp [hs, h, hr, Ne.symm hr]
  · by_cases hr : s = route
    · subst route
      simp [hs, h]
    · simp [hs, h, hr]

theorem passedOn_of_sendUplink (f : Router → Router)
    (ht : f x.router = { x.router with announced := (f x.router).announced }) (m : Envelope) :
    let out := (x.mapRouter f).sendUplink m
    Handed (x.router.uplink.map (·.endpoint)) m x out.1 ∧
      out.1.router = { x.router with announced := out.1.router.announced } ∧
      out.1.router.announced = (f x.router).announced ∧
      (x.router.uplink = none → out.2 = .ok ()) ∧
      ∀ b, x.router.uplink = some b → x.Told b.endpoint id out.2 := by
  have hu : (f x.router).uplink = x.router.uplink := by rw [ht]
  have hf := sendUplink_mapRouter_fst (m := m) f hu
  refine ⟨?_, ?_, ?_, ?_, ?_⟩
  · rw [hf]
    exact handed_uplink f
  · rw [hf, router_handAll]
    exact ht
  · rw [hf, router_handAll]
    rfl
  · intro hn
    simp [sendUplink, mapRouter, hu, hn]
  · intro b hb
    have := told_send (x.mapRouter f) b.endpoint m
    simpa [sendUplink, mapRouter, hu, hb, Told] using this

theorem sourced_eq (m : Envelope) (source : String) :
    sourced m source = { m with source := some (m.source.getD source) } := by
  unfold sourced
  cases hs : m.source with
  | none => simp
  | some s =>
    cases m
    simp_all

theorem sourced_source (m : Envelope) (source : String) :
    (sourced m source).source.isSome := by
  rw [sourced_eq]
  rfl

theorem delivered_of_resolve? (hd : x.router.resolve? m.route source = some (name, b)) :
    Handed (some b.endpoint) m x (x.deliver m source).1 ∧
      (x.deliver m source).1.router = x.router ∧
      x.Told b.endpoint (fun e => .routing ("route " ++ name ++ " is closed: " ++ e.text))
        (x.deliver m source).2 := by
  have hf := deliver_fst x m source
  simp only [hd, Option.map_some, Option.toList_some, handAll_singleton] at hf
  rw [hf]
  refine ⟨handed_modify rfl rfl _, rfl, fun e he => ?_⟩
  have hs := send_snd (m := m) he
  unfold deliver
  simp only [hd]
  generalize x.send b.endpoint m = v at hs
  obtain ⟨y, r⟩ := v
  cases ho : e.incoming.isOpen <;> simp_all

theorem ignored_dispatched (hc : IsControl m) (hu : source = uplinkRoute) :
    Dispatched x m source x (.ok ()) := by
  constructor
  case ignored => exact fun _ _ => ⟨rfl, rfl⟩
  case delivered => exact fun h => absurd hc h
  case lost => exact fun h => absurd hc h
  all_goals exact fun _ h => absurd hu h

theorem announce_dispatched (hs : m.source.isSome)
    (ha : m.command = some Command.routeAnnounceName) :
    Dispatched x m source (x.announce m source).1 (x.announce m source).2 := by
  have hne : Command.routeAnnounceName ≠ Command.routeUnannounceName := by decide
  have hc : IsControl m := .inl ha
  by_cases hu : source = uplinkRoute
  · have hi : x.announce m source = (x, .ok ()) := by simp [announce, hu]
    rw [hi]
    exact ignored_dispatched hc hu
  · obtain ⟨hh, ht, hv, hn, ho⟩ := passedOn_of_sendUplink
      (·.noteAnnounced (m.source.getD source) source) (tables_noteAnnounced ..) m
    simp only [announce, if_neg hu]
    constructor
    case ignored => exact fun _ h => absurd h hu
    case passedOn => exact fun _ _ => ⟨hh, ht, hn, ho⟩
    case announced =>
      intro _ _ route
      rw [hv, get?_noteAnnounced _ hs]
    case unannounced =>
      intro h
      rw [ha] at h
      exact absurd (Option.some.inj h) hne
    case delivered => exact fun h => absurd hc h
    case lost => exact fun h => absurd hc h

theorem unannounce_dispatched (hs : m.source.isSome)
    (ha : m.command = some Command.routeUnannounceName) :
    Dispatched x m source (x.unannounce m source).1 (x.unannounce m source).2 := by
  have hne : Command.routeUnannounceName ≠ Command.routeAnnounceName := by decide
  have hc : IsControl m := .inr ha
  by_cases hu : source = uplinkRoute
  · have hi : x.unannounce m source = (x, .ok ()) := by simp [unannounce, hu]
    rw [hi]
    exact ignored_dispatched hc hu
  · obtain ⟨hh, ht, hv, hn, ho⟩ := passedOn_of_sendUplink
      (·.noteUnannounced (m.source.getD source) source) (tables_noteUnannounced ..) m
    simp only [unannounce, if_neg hu]
    constructor
    case ignored => exact fun _ h => absurd h hu
    case passedOn => exact fun _ _ => ⟨hh, ht, hn, ho⟩
    case announced =>
      intro h
      rw [ha] at h
      exact absurd (Option.some.inj h) hne
    case unannounced =>
      intro _ _ route
      rw [hv, get?_noteUnannounced _ hs]
    case delivered => exact fun h => absurd hc h
    case lost => exact fun h => absurd hc h

theorem deliver_dispatched (hc : ¬IsControl m) :
    Dispatched x m source (x.deliver m source).1 (x.deliver m source).2 := by
  constructor
  case ignored => exact fun h => absurd h hc
  case passedOn => exact fun h => absurd h hc
  case announced => exact fun h => absurd (.inl h) hc
  case unannounced => exact fun h => absurd (.inr h) hc
  case delivered =>
    intro _ name b hl
    exact delivered_of_resolve? (Router.resolve?_of_leads hl)
  case lost =>
    intro _ hl
    have hr : x.router.resolve? m.route source = none := by
      rw [Option.eq_none_iff_forall_ne_some]
      rintro ⟨name, b⟩ h
      exact hl name b (Router.leads_of_resolve? h)
    simp [deliver, hr]

/-- Every envelope that a router which is not shut down routes goes where the tables say, under
the source it names or else under the one it comes from. -/
theorem route_dispatched (x : Exchange σ) (m : Envelope) (source : String)
    (hopen : x.router.closed = false) :
    Dispatched x { m with source := some (m.source.getD source) } source
      (x.route m source).1 (x.route m source).2 := by
  rw [← sourced_eq]
  have hsome := sourced_source m source
  unfold route
  generalize sourced m source = m at hsome
  simp only [hopen, Bool.false_eq_true, if_false]
  by_cases ha : m.command = some Command.routeAnnounceName
  · rw [if_pos ha]
    exact announce_dispatched hsome ha
  rw [if_neg ha]
  by_cases hu : m.command = some Command.routeUnannounceName
  · rw [if_pos hu]
    exact unannounce_dispatched hsome hu
  rw [if_neg hu]
  have hc : ¬IsControl m := by
    rintro (h | h)
    · exact ha h
    · exact hu h
  exact deliver_dispatched hc

/-- A router with an entry in each table; one of the announced routes was reached through a route
that is gone, and so is the default route. -/
def junction : Exchange Unit where
  router := {
    routes := ({} : Registry String Binding).insert "a" { endpoint := 0, pump := 0 }
    uplink := some { endpoint := 1, pump := 1 }
    announced := (({} : Registry String String).insert "b" "a").insert "c" "gone"
    defaultRoute := some "gone" }
  endpoints := [.mailbox { complaint := "closed" }, .mailbox { complaint := "closed" }]

theorem junction_dispatched : junction.router.closed = false ∧
    Dispatched junction { route := some "c", source := some "x" } "x"
      (junction.route { route := some "c" } "x").1 (junction.route { route := some "c" } "x").2 :=
  ⟨rfl, route_dispatched junction { route := some "c" } "x" rfl⟩

end Exchange

end Switchboard
