import Switchboard.Proofs.Relay.Queues

/-! What pumps hold between taking an envelope and routing it. Whatever is done to the router's
tables, a pump loses nothing, and no endpoint gets a second one. -/
namespace Switchboard

variable {σ : Type} {x y : Exchange σ} {r : Router} {k j p : Nat} {u : Pump} {m : Envelope}

/-- The endpoint of a pump and what it holds. -/
def Pump.hold (u : Pump) : Nat × Option Envelope := (u.endpoint, u.held)

namespace Router

def holds (r : Router) : List (Nat × Option Envelope) := r.pumps.map Pump.hold

theorem map_modify_of_eq {α β : Type} (f : α → α) (g : α → β) (h : ∀ a, g (f a) = g a)
    (l : List α) (i : Nat) : (l.modify i f).map g = l.map g := by
  apply List.ext_getElem?
  intro j
  rw [List.getElem?_map, List.getElem?_map, List.getElem?_modify]
  cases l[j]? with
  | none => rfl
  | some a => by_cases hj : i = j <;> simp [hj, h]

@[simp] theorem holds_cancelPump (r : Router) (p : Nat) : (r.cancelPump p).holds = r.holds :=
  map_modify_of_eq (fun u : Pump => { u with cancelled := true }) Pump.hold (fun _ => rfl) _ p

@[simp] theorem holds_cancelPumpOf (r : Router) (b : Option Binding) :
    (r.cancelPumpOf b).holds = r.holds := by
  cases b with
  | none => rfl
  | some b => exact holds_cancelPump r b.pump

theorem holds_foldl_cancelPump (ps : List Nat) (r : Router) :
    (ps.foldl cancelPump r).holds = r.holds := by
  induction ps generalizing r with
  | nil => rfl
  | cons p ps ih => exact (ih _).trans (holds_cancelPump r p)

theorem holds_noted (r : Router) (m : Envelope) (source : String) :
    (Exchange.noted r m source).holds = r.holds := by
  rw [Exchange.tables_noted]
  rfl

/-- An operation adds an idle pump if it binds an endpoint, and else lets the pumps be. -/
theorem holds_table (op : Relay.Operation) (r : Router) :
    (op.table r).holds = r.holds ++ (op.bound?.map (·, none)).toList := by
  cases op with
  | register route endpoint isLocal =>
    have h := holds_cancelPumpOf r (r.routes.get? route)
    simp only [holds] at h
    simp [Relay.Operation.table, register, holds, Relay.Operation.bound?, Pump.hold, h]
  | setUplink endpoint =>
    have h := holds_cancelPumpOf r r.uplink
    simp only [holds] at h
    simp [Relay.Operation.table, setUplink, holds, Relay.Operation.bound?, Pump.hold, h]
  | unregister route =>
    simp only [Relay.Operation.table, unregister, Relay.Operation.bound?, Option.map_none,
      Option.toList_none, List.append_nil]
    cases r.routes.get? route with
    | none => rfl
    | some b => exact holds_cancelPump _ _
  | clearUplink =>
    exact (holds_cancelPumpOf r r.uplink).trans (List.append_nil _).symm
  | shutdown =>
    simp only [Relay.Operation.table, shutdown, Relay.Operation.bound?, Option.map_none,
      Option.toList_none, List.append_nil]
    split
    · rfl
    · exact holds_foldl_cancelPump _ _
  | withdraw route token => cases token <;> exact (List.append_nil _).symm
  | setDefault route => exact (List.append_nil _).symm
  | accept accepted minted => exact (List.append_nil _).symm

end Router

namespace Exchange

/-- What is held for an endpoint. -/
def heldIn (hs : List (Nat × Option Envelope)) (k : Nat) : List Envelope :=
  hs.flatMap fun h => if h.1 = k then h.2.toList else []

theorem held_eq (x : Exchange σ) (k : Nat) : x.held k = heldIn x.router.holds k := by
  rw [held, heldIn, Router.holds, List.flatMap_map]
  rfl

theorem boundOnce_iff : x.BoundOnce ↔ (x.router.holds.map Prod.fst).Nodup := by
  simp [BoundOnce, Router.holds, Pump.hold, Function.comp_def]

theorem heldIn_of_not_mem {hs : List (Nat × Option Envelope)} (h : k ∉ hs.map Prod.fst) :
    heldIn hs k = [] := by
  induction hs with
  | nil => rfl
  | cons a hs ih =>
    rw [List.map_cons, List.mem_cons, not_or] at h
    simp only [heldIn, List.flatMap_cons, if_neg (Ne.symm h.1), List.nil_append]
    exact ih h.2

/-- With one pump for each endpoint, what is held for an endpoint is what its pump holds. -/
theorem heldIn_of_getElem? {hs : List (Nat × Option Envelope)} {held : Option Envelope}
    (hnodup : (hs.map Prod.fst).Nodup) (h : hs[p]? = some (k, held)) :
    heldIn hs k = held.toList := by
  induction hs generalizing p with
  | nil => simp at h
  | cons a hs ih =>
    rw [List.map_cons, List.nodup_cons] at hnodup
    obtain ⟨hother, hnodup⟩ := hnodup
    cases p with
    | zero =>
      obtain rfl : a = (k, held) := by simpa using h
      have hrest := heldIn_of_not_mem hother
      simp only [heldIn] at hrest
      simp [heldIn, hrest]
    | succ p =>
      rw [List.getElem?_cons_succ] at h
      have hk : k ∈ hs.map Prod.fst := List.mem_map.2 ⟨_, List.mem_of_getElem? h, rfl⟩
      have hak : a.1 ≠ k := fun he => hother (he ▸ hk)
      have hrest := ih hnodup h
      simp only [heldIn] at hrest
      simp [heldIn, hak, hrest]

theorem heldIn_modify_of_ne {hs : List (Nat × Option Envelope)} {held new : Option Envelope}
    (h : hs[p]? = some (k, held)) (hj : k ≠ j) :
    heldIn (hs.modify p fun a => (a.1, new)) j = heldIn hs j := by
  induction hs generalizing p with
  | nil => simp at h
  | cons a hs ih =>
    cases p with
    | zero =>
      obtain rfl : a = (k, held) := by simpa using h
      simp [heldIn, hj]
    | succ p =>
      rw [List.getElem?_cons_succ] at h
      have hrest := ih h
      simp only [heldIn] at hrest
      simp [heldIn, hrest]

theorem holds_setPump (x : Exchange σ) (p : Nat) (new : Option Envelope) :
    (x.setPump p new).router.holds = x.router.holds.modify p fun a => (a.1, new) := by
  apply List.ext_getElem?
  intro j
  simp only [setPump, mapRouter, Router.holds, List.getElem?_map, List.getElem?_modify]
  cases x.router.pumps[j]? with
  | none => rfl
  | some u => by_cases hj : p = j <;> simp [hj, Pump.hold]

theorem boundOnce_setPump (hx : x.BoundOnce) (p : Nat) (new : Option Envelope) :
    (x.setPump p new).BoundOnce := by
  have hsame := Router.map_modify_of_eq
    (fun a : Nat × Option Envelope => (a.1, new)) Prod.fst (fun _ => rfl) x.router.holds p
  rw [boundOnce_iff, holds_setPump, hsame]
  exact boundOnce_iff.1 hx

theorem holds_getElem? (hu : x.router.pumps[p]? = some u) :
    x.router.holds[p]? = some (u.endpoint, u.held) := by
  simp [Router.holds, hu, Pump.hold]

theorem held_of_pump (hx : x.BoundOnce) (hu : x.router.pumps[p]? = some u) :
    x.held u.endpoint = u.held.toList := by
  rw [held_eq]
  exact heldIn_of_getElem? (boundOnce_iff.1 hx) (holds_getElem? hu)

/-- Only the endpoint of a pump is concerned when the pump takes an envelope or gives it away. -/
theorem held_setPump (hx : x.BoundOnce) (hu : x.router.pumps[p]? = some u)
    (new : Option Envelope) (k : Nat) :
    (x.setPump p new).held k = if u.endpoint = k then new.toList else x.held k := by
  have hold := holds_getElem? hu
  split
  · rename_i hk
    subst k
    have hnew : (x.setPump p new).router.holds[p]? = some (u.endpoint, new) := by
      simp [holds_setPump, hold]
    rw [held_eq]
    exact heldIn_of_getElem? (boundOnce_iff.1 (boundOnce_setPump hx p new)) hnew
  · rw [held_eq, held_eq, holds_setPump]
    exact heldIn_modify_of_ne hold ‹_›

theorem holds_route (x : Exchange σ) (m : Envelope) (source : String) :
    (x.route m source).1.router.holds = x.router.holds := by
  rw [route_fst, router_handAll]
  exact Router.holds_noted _ _ _

theorem holds_forward (hu : x.router.pumps[p]? = some u) (hm : u.held = some m) :
    (x.forward p).1.router.holds = (x.setPump p none).router.holds := by
  obtain ⟨source, endpoint, cancelled, held⟩ := u
  subst hm
  simp only [forward, hu]
  exact holds_route _ m source

theorem held_congr (h : y.router.holds = x.router.holds) (k : Nat) : y.held k = x.held k := by
  rw [held_eq, held_eq, h]

theorem boundOnce_congr (h : y.router.holds = x.router.holds) (hx : x.BoundOnce) : y.BoundOnce := by
  rw [boundOnce_iff, h]
  exact boundOnce_iff.1 hx

end Exchange

namespace Relay

open Exchange

variable {t : Entry}

theorem holds_apply (op : Operation) (x : Exchange σ) :
    (op.apply x).router.holds = x.router.holds ++ (op.bound?.map (·, none)).toList := by
  rw [router_apply]
  exact Router.holds_table op x.router

theorem held_apply (op : Operation) (x : Exchange σ) (k : Nat) :
    (op.apply x).held k = x.held k := by
  rw [held_eq, held_eq, holds_apply]
  cases op.bound? <;> simp [heldIn]

theorem Step.boundOnce (h : Step x t y) (hx : x.BoundOnce) : y.BoundOnce := by
  cases h with
  | produce | consume | shut | change => exact hx
  | fetch hu hidle hy =>
    obtain ⟨e, rest, he, m, hm, rfl⟩ := fetch_cases hu hy
    exact boundOnce_setPump hx _ _
  | forward hu hm =>
    exact boundOnce_congr (holds_forward hu hm) (boundOnce_setPump hx _ _)
  | inject source m => exact boundOnce_congr (holds_route x m source) hx
  | operate op hnew =>
    rw [boundOnce_iff] at hx ⊢
    rw [holds_apply]
    cases hb : op.bound? with
    | none => simpa using hx
    | some k =>
      have hk : k ∉ x.router.holds.map Prod.fst := by
        intro hmem
        simp only [Router.holds, List.map_map, List.mem_map] at hmem
        obtain ⟨u, hu, he⟩ := hmem
        exact hnew k hb u hu he
      rw [List.map_append, List.nodup_append]
      refine ⟨hx, by simp, ?_⟩
      rintro a ha b hb rfl
      obtain rfl : a = k := by simpa using hb
      exact hk ha

end Relay

end Switchboard
