import Switchboard.Proofs.Admission.Step
import Switchboard.Proofs.Exchange.Dispatch
import Switchboard.Proofs.Relay.Run

/-! The routes that the uplink reaches, and what becomes of them when one is removed. All that was
reached by the route alone goes dark with it; the uplink hears of the route, and has to know by
itself what it reached by it. -/
namespace Switchboard

namespace Router

variable {r : Router} {id route via : String} {b : Binding}

/-- An envelope of the uplink to the route goes to somebody. -/
def Reached (r : Router) (route : String) : Prop :=
  (r.resolve? (some route) uplinkRoute).isSome = true

instance (r : Router) (route : String) : Decidable (r.Reached route) :=
  inferInstanceAs (Decidable (_ = true))

/-- The route is announced through one that is bound. -/
def Rests (r : Router) (id via : String) : Prop :=
  r.announced.get? id = some via ∧ (r.routes.get? via).isSome = true

theorem through_isSome_iff : (r.through id).isSome = true ↔ ∃ via, r.Rests id via := by
  unfold through registered Rests
  cases r.announced.get? id with
  | none => simp
  | some via => simp

/-- The uplink reaches what is bound, and what is announced through something that is bound. -/
theorem reached_iff : r.Reached id ↔
    id ≠ uplinkRoute ∧ ((r.routes.get? id).isSome = true ∨ ∃ via, r.Rests id via) := by
  by_cases hid : id = uplinkRoute
  · simp [Reached, resolve?, upward, hid]
  · have hup : r.upward uplinkRoute = none := if_pos rfl
    rw [← through_isSome_iff]
    cases hb : r.routes.get? id with
    | some b => simp [Reached, resolve?, hid, registered, hb]
    | none => simp [Reached, resolve?, hid, registered, hb, hup]

/-- A route that is removed takes its own announcements along, and nobody else's. -/
theorem rests_unregister (hb : r.routes.get? route = some b) :
    (r.unregister route).Rests id via ↔ r.Rests id via ∧ via ≠ route := by
  have ha : (r.unregister route).announced = r.announced.filter fun _ via => via ≠ route := by
    simp [unregister, hb, cancelPump]
  unfold Rests
  rw [ha, Registry.get?_filter, Option.filter_eq_some_iff, get?_unregister]
  by_cases hv : via = route
  · simp [hv]
  · simp [hv]

/-- What is reached by a route alone: the route itself, unless it is announced through another that
is bound, and what is announced through it and not bound. -/
inductive GoesWith (r : Router) (route : String) : String → Prop
  | self (h : ∀ via, r.Rests route via → via = route) : GoesWith r route route
  | announced {id : String} (hne : id ≠ route) (hn : r.routes.get? id = none)
      (ha : r.announced.get? id = some route) : GoesWith r route id

/-- Exactly that goes dark when the route is removed. -/
theorem dark_iff_goesWith (hb : r.routes.get? route = some b) (hid : id ≠ uplinkRoute) :
    r.Reached id ∧ ¬(r.unregister route).Reached id ↔ r.GoesWith route id := by
  simp only [reached_iff, get?_unregister, rests_unregister hb, ne_eq, hid, not_false_eq_true,
    true_and]
  by_cases hne : id = route
  · subst id
    constructor
    · rintro ⟨-, hdark⟩
      refine .self fun via hv => ?_
      by_contra hvia
      exact hdark (.inr ⟨via, hv, hvia⟩)
    · intro h
      cases h with
      | self h =>
        refine ⟨.inl (by simp [hb]), ?_⟩
        rintro (hsome | ⟨via, hv, hvia⟩)
        · simp at hsome
        · exact hvia (h via hv)
      | announced hne => exact absurd rfl hne
  · simp only [if_neg hne]
    constructor
    · rintro ⟨hreach, hdark⟩
      rw [not_or] at hdark
      obtain ⟨hn, hrest⟩ := hdark
      obtain ⟨via, hv⟩ := hreach.resolve_left hn
      obtain rfl : via = route := by
        by_contra hvia
        exact hrest ⟨via, hv, hvia⟩
      exact .announced hne (by simpa using hn) hv.1
    · intro h
      cases h with
      | self => exact absurd rfl hne
      | announced _ hn ha =>
        refine ⟨.inr ⟨route, ha, by simp [hb]⟩, ?_⟩
        rintro (hsome | ⟨via, hv, hvia⟩)
        · simp [hn] at hsome
        · exact hvia (Option.some.inj (hv.1.symm.trans ha))

end Router

namespace Exchange

variable {σ : Type} {x : Exchange σ} {id route : String} {b c : Binding}

/-- What the removal of a route from `x` comes to, for the uplink that is bound to an endpoint. -/
structure Retired (x : Exchange σ) (route : String) (uplink : Nat) (y : Exchange σ) : Prop where
  /-- The uplink is told that the route is gone, once, and nothing else is handed to anybody. -/
  told : Handed (some uplink) (unannouncement route) x y
  /-- What the uplink reached by the route alone it reaches no more, and all else it still does. -/
  dark : ∀ id, id ≠ uplinkRoute →
    (x.router.Reached id ∧ ¬y.router.Reached id ↔ x.router.GoesWith route id)
  /-- Nothing comes to be reached that was not. -/
  kept : ∀ id, y.router.Reached id → x.router.Reached id

theorem unregisterHandings_of_uplink (hb : x.router.routes.get? route = some b)
    (hl : b.isLocal = false) (hu : x.router.uplink = some c) :
    unregisterHandings x.router route = [⟨c.endpoint, unannouncement route⟩] := by
  simp [unregisterHandings, uplinkHandings, hb, hl, hu]

/-- Whatever was reached by the route that is removed, the uplink is told of the route alone. -/
theorem unregister_retires (hb : x.router.routes.get? route = some b) (hl : b.isLocal = false)
    (hu : x.router.uplink = some c) : Retired x route c.endpoint (x.unregister route) := by
  have hout := unregister_eq x route
  rw [unregisterHandings_of_uplink hb hl hu, handAll_singleton] at hout
  rw [hout]
  constructor
  case told =>
    exact handed_modify (x := x) (y := x.mapRouter (·.unregister route)) rfl rfl c.endpoint
  case dark =>
    intro id hid
    exact Router.dark_iff_goesWith hb hid
  case kept =>
    intro id h
    obtain ⟨hid, h⟩ := Router.reached_iff.1 h
    refine Router.reached_iff.2 ⟨hid, h.imp (fun h => ?_) ?_⟩
    · rw [router_modify, mapRouter, Router.get?_unregister] at h
      split at h
      · cases h
      · exact h
    · rintro ⟨via, hv⟩
      exact ⟨via, ((Router.rests_unregister hb).1 hv).1⟩

/-- A route `x` that is announced through `a`, and `a` itself through `b`. -/
def depot : Exchange Unit where
  router := {
    routes := (({} : Registry String Binding).insert "b" { endpoint := 2, pump := 2 }).insert
      "a" { endpoint := 1, pump := 1 }
    uplink := some { endpoint := 0, pump := 0 }
    announced := (({} : Registry String String).insert "a" "b").insert "x" "a"
    pumps := [{ source := uplinkRoute, endpoint := 0 }, { source := "a", endpoint := 1 },
      { source := "b", endpoint := 2 }] }
  endpoints := [.mailbox { complaint := "gone" }, .mailbox { complaint := "gone" },
    .mailbox { complaint := "gone" }]

theorem depot_retired : depot.router.routes.get? "a" = some { endpoint := 1, pump := 1 } ∧
    depot.router.uplink = some { endpoint := 0, pump := 0 } ∧
    depot.router.Reached "x" ∧ ¬(depot.unregister "a").router.Reached "x" ∧
    Retired depot "a" 0 (depot.unregister "a") :=
  ⟨rfl, rfl, by decide, by decide, unregister_retires (b := { endpoint := 1, pump := 1 })
    (c := { endpoint := 0, pump := 0 }) rfl rfl rfl⟩

/-- A route may go dark without the uplink being told of it, and one that the uplink is told to be
gone may still be reached. -/
theorem exists_untold : ∃ (x : Exchange Unit) (b c : Binding),
    x.router.routes.get? "a" = some b ∧ b.isLocal = false ∧ x.router.uplink = some c ∧
      (x.router.Reached "x" ∧ ¬(x.unregister "a").router.Reached "x" ∧
        ∀ m ∈ (x.unregister "a").incoming c.endpoint, m.source ≠ some "x") ∧
      (x.router.Reached "a" ∧ (x.unregister "a").router.Reached "a" ∧
        ∃ m ∈ (x.unregister "a").incoming c.endpoint,
          m.command = some Command.routeUnannounceName ∧ m.source = some "a") := by
  have hin : (depot.unregister "a").incoming 0 = [unannouncement "a"] := rfl
  refine ⟨depot, { endpoint := 1, pump := 1 }, { endpoint := 0, pump := 0 }, rfl, rfl, rfl,
    ⟨by decide, by decide, ?_⟩, by decide, by decide, ?_⟩
  · rw [hin]
    simp [unannouncement]
  · rw [hin]
    exact ⟨unannouncement "a", List.mem_singleton_self _, rfl, rfl⟩

end Exchange

end Switchboard
