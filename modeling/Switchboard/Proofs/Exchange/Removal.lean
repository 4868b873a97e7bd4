import Switchboard.Proofs.Exchange.Handing

/-! What the removal of routes hands out, and what endpoints become by envelopes that are handed
out. -/
namespace Switchboard.Exchange

variable {σ : Type} {x y : Exchange σ} {j : Nat} {m : Envelope}

/-- What the removal of a route hands out. -/
def unregisterHandings (r : Router) (route : String) : List Handing :=
  match r.routes.get? route with
  | some b => if b.isLocal then [] else uplinkHandings r (unannouncement route)
  | none => []

theorem unregister_eq (x : Exchange σ) (route : String) :
    x.unregister route =
      (x.mapRouter (·.unregister route)).handAll (unregisterHandings x.router route) := by
  unfold unregister unregisterHandings
  cases hb : x.router.routes.get? route with
  | none => simp [mapRouter, Router.unregister, hb]
  | some b =>
    have hu : (x.router.unregister route).uplink = x.router.uplink := by
      simp [Router.unregister, hb, Router.cancelPump]
    by_cases hl : b.isLocal = true
    · simp [hl]
    · simpa [hl, tellGone] using sendUplink_mapRouter_fst (·.unregister route) hu

theorem withdraw_eq (x : Exchange σ) (route token : String) :
    x.withdraw route (some token) =
      (x.mapRouter fun r => (r.revoke token).retract route).handAll
        (uplinkHandings x.router (unannouncement route)) := by
  exact sendUplink_mapRouter_fst (fun r => (r.revoke token).retract route) rfl

/-- What an endpoint is after some envelopes are handed out depends on itself alone. -/
theorem getElem?_handAll (hs : List Handing) (h : y.endpoints[j]? = x.endpoints[j]?) :
    (y.handAll hs).endpoints[j]? = (x.handAll hs).endpoints[j]? := by
  induction hs generalizing x y with
  | nil => exact h
  | cons a hs ih =>
    apply ih
    show (y.endpoints.modify _ _)[j]? = (x.endpoints.modify _ _)[j]?
    rw [List.getElem?_modify, List.getElem?_modify, h]

theorem endpoints_handAll (hs : List Handing) (h : y.endpoints = x.endpoints) :
    (y.handAll hs).endpoints = (x.handAll hs).endpoints :=
  List.ext_getElem? fun _ => getElem?_handAll hs (by rw [h])

theorem endpoints_route (m : Envelope) (source : String) :
    (x.route m source).1.endpoints = (x.handAll (routeHandings x.router m source)).endpoints := by
  rw [route_fst]
  exact endpoints_handAll _ rfl

theorem endpoints_unregister (route : String) :
    (x.unregister route).endpoints
      = (x.handAll (unregisterHandings x.router route)).endpoints := by
  rw [unregister_eq]
  exact endpoints_handAll _ rfl

theorem endpoints_withdraw (route : String) (token : Option String) :
    (x.withdraw route token).endpoints
      = (x.handAll (uplinkHandings x.router (unannouncement route))).endpoints := by
  cases token with
  | some token =>
    rw [withdraw_eq]
    exact endpoints_handAll _ rfl
  | none =>
    have h := sendUplink_mapRouter_fst (x := x) (m := unannouncement route) (·.retract route) rfl
    exact (congrArg Exchange.endpoints h).trans (endpoints_handAll _ rfl)

end Switchboard.Exchange
