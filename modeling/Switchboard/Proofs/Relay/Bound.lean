import Switchboard.Proofs.Admission.Shutdown
import Switchboard.Proofs.Relay.Announced
import Switchboard.Proofs.Relay.Held

/-! The pumps that are not cancelled and what is bound: each binding has one pump of its own, and
no other pump goes on. A pump whose binding is replaced or removed takes nothing any more. -/
namespace Switchboard

open Relay (Operation)

namespace Router

variable {r s : Router} {p : Nat} {u : Pump}

/-- What is bound under a route, or as the uplink. -/
def binding? (r : Router) : (slot : Option String) → Option Binding
  | some route => r.routes.get? route
  | none => r.uplink

/-- The route that envelopes come from which the pump of a slot takes. -/
def origin (slot : Option String) : String := slot.getD uplinkRoute

/-- Everything that is bound, with the route that its envelopes come from. -/
def bindings (r : Router) : List (String × Binding) :=
  r.routes.entries ++ (r.uplink.map (uplinkRoute, ·)).toList

/-- The route and the endpoint of a pump, unless it is cancelled. -/
def live? (r : Router) (p : Nat) : Option (String × Nat) :=
  r.pumps[p]?.bind fun u => if u.cancelled then none else some (u.source, u.endpoint)

def Cancelled (r : Router) (p : Nat) : Prop := ∃ u, r.pumps[p]? = some u ∧ u.cancelled = true

/-- What a pump has taken and not routed. -/
def held? (r : Router) (p : Nat) : Option Envelope := r.pumps[p]?.bind Pump.held

/-- The pumps whose bindings an operation replaces or removes, or ends with all others. -/
def displaced (r : Router) : Operation → List Nat
  | .register route _ _ | .unregister route => ((r.binding? (some route)).map Binding.pump).toList
  | .setUplink _ | .clearUplink => ((r.binding? none).map Binding.pump).toList
  | .shutdown => r.boundPumps
  | _ => []

theorem cancelled_iff : r.Cancelled p ↔ p < r.pumps.length ∧ r.live? p = none := by
  constructor
  · rintro ⟨u, hu, hc⟩
    refine ⟨(List.getElem?_eq_some_iff.1 hu).1, ?_⟩
    simp [live?, hu, hc]
  · rintro ⟨hlt, hl⟩
    refine ⟨r.pumps[p], List.getElem?_eq_getElem hlt, ?_⟩
    simpa [live?, hlt] using hl

theorem lt_of_live? (h : r.live? p ≠ none) : p < r.pumps.length := by
  by_contra hp
  rw [live?, List.getElem?_eq_none (Nat.le_of_not_lt hp)] at h
  exact h rfl

theorem live?_ne_none_iff :
    r.live? p ≠ none ↔ ∃ u, r.pumps[p]? = some u ∧ u.cancelled = false := by
  cases hu : r.pumps[p]? with
  | none => simp [live?, hu]
  | some u => simp [live?, hu]

theorem live?_cancelPump (r : Router) (p q : Nat) :
    (r.cancelPump p).live? q = if p = q then none else r.live? q := by
  rw [live?, getElem?_of_modify (r := r) rfl, live?]
  cases r.pumps[q]? with
  | none => simp
  | some u => by_cases hq : p = q <;> simp [hq]

theorem live?_cancelPumpOf (r : Router) (b : Option Binding) (q : Nat) :
    (r.cancelPumpOf b).live? q = if b.map Binding.pump = some q then none else r.live? q := by
  cases b with
  | none => simp [cancelPumpOf]
  | some b => simp [cancelPumpOf, live?_cancelPump]

theorem live?_unregister (r : Router) (route : String) (p : Nat) :
    (r.unregister route).live? p =
      if (r.binding? (some route)).map Binding.pump = some p then none else r.live? p := by
  cases hb : r.routes.get? route with
  | none => simp [unregister, binding?, hb]
  | some b =>
    simp only [unregister, binding?, hb, live?_cancelPump, Option.map_some, Option.some.injEq]
    rfl

theorem live?_foldl_cancelPump (ps : List Nat) (r : Router) (q : Nat) :
    (ps.foldl cancelPump r).live? q = if q ∈ ps then none else r.live? q := by
  induction ps generalizing r with
  | nil => simp
  | cons p ps ih =>
    rw [List.foldl_cons, ih, live?_cancelPump]
    by_cases hq : q ∈ ps
    · simp [hq]
    · by_cases hp : p = q
      · simp [hp]
      · simp [hq, hp, Ne.symm hp]

/-- A new pump goes on, and the others go on as they did. -/
theorem live?_concat {source : String} {endpoint : Nat}
    (h : s.pumps = r.pumps ++ [{ source := source, endpoint := endpoint }]) (p : Nat) :
    s.live? p = if p = r.pumps.length then some (source, endpoint) else r.live? p := by
  rw [live?, h, live?]
  rcases Nat.lt_trichotomy p r.pumps.length with hlt | rfl | hgt
  · rw [List.getElem?_append_left hlt, if_neg (Nat.ne_of_lt hlt)]
  · simp
  · rw [List.getElem?_eq_none (by simp; omega), if_neg (Nat.ne_of_gt hgt),
      List.getElem?_eq_none (Nat.le_of_lt hgt)]

theorem binding?_cancelPumpOf (r : Router) (b : Option Binding) (slot : Option String) :
    (r.cancelPumpOf b).binding? slot = r.binding? slot := by
  cases b <;> cases slot <;> rfl

/-- The pumps that go on are those of what is bound, one for each. -/
structure Manned (r : Router) : Prop where
  serves : ∀ slot b, r.binding? slot = some b → r.live? b.pump = some (origin slot, b.endpoint)
  apart : ∀ slot slot' b c, r.binding? slot = some b → r.binding? slot' = some c →
    b.pump = c.pump → slot = slot'
  bound : ∀ p, r.live? p ≠ none → ∃ slot b, r.binding? slot = some b ∧ b.pump = p

namespace Manned

theorem empty : Manned {} where
  serves slot b h := by cases slot <;> cases h
  apart slot slot' b c h := by cases slot <;> cases h
  bound p h := absurd rfl h

theorem congr (h : r.Manned) (hl : ∀ p, s.live? p = r.live? p)
    (hb : ∀ slot, s.binding? slot = r.binding? slot) : s.Manned where
  serves slot b hs := by
    rw [hl]
    exact h.serves slot b (hb slot ▸ hs)
  apart slot slot' b c hs hs' := h.apart slot slot' b c (hb slot ▸ hs) (hb slot' ▸ hs')
  bound p hp := by
    obtain ⟨slot, b, hs, rfl⟩ := h.bound p (hl p ▸ hp)
    exact ⟨slot, b, (hb slot).trans hs, rfl⟩

/-- A slot loses its binding, and the pump of the binding is cancelled. -/
theorem unbind (h : r.Manned) (slot : Option String)
    (hl : ∀ p, s.live? p = if (r.binding? slot).map Binding.pump = some p then none else r.live? p)
    (hb : ∀ i, s.binding? i = if i = slot then none else r.binding? i) : s.Manned := by
  have hkept {i : Option String} {b : Binding} (hi : s.binding? i = some b) :
      r.binding? i = some b ∧ s.live? b.pump = r.live? b.pump := by
    rw [hb] at hi
    split at hi
    · cases hi
    rename_i hne
    refine ⟨hi, ?_⟩
    rw [hl, if_neg]
    intro hp
    obtain ⟨c, hc, hcb⟩ := Option.map_eq_some_iff.1 hp
    exact hne (h.apart i slot b c hi hc hcb.symm)
  refine ⟨fun i b hi => ?_, fun i j b c hi hj => ?_, fun p hp => ?_⟩
  · obtain ⟨hi, hlive⟩ := hkept hi
    exact hlive.trans (h.serves i b hi)
  · exact h.apart i j b c (hkept hi).1 (hkept hj).1
  · rw [hl] at hp
    split at hp
    · exact absurd rfl hp
    rename_i hne
    obtain ⟨i, b, hi, rfl⟩ := h.bound p hp
    refine ⟨i, b, ?_, rfl⟩
    rw [hb, if_neg, hi]
    rintro rfl
    exact hne (by rw [hi]; rfl)

/-- An empty slot gets a binding, and the binding a pump of its own. -/
theorem bind (h : r.Manned) (slot : Option String) (new : Binding) (hfree : r.binding? slot = none)
    (hnew : new.pump = r.pumps.length)
    (hp : s.pumps = r.pumps ++ [{ source := origin slot, endpoint := new.endpoint }])
    (hb : ∀ i, s.binding? i = if i = slot then some new else r.binding? i) : s.Manned := by
  have hold {i : Option String} {b : Binding} (hi : r.binding? i = some b) :
      b.pump ≠ r.pumps.length := by
    have hlt := lt_of_live? (by rw [h.serves i b hi]; simp : r.live? b.pump ≠ none)
    omega
  have hcases {i : Option String} {b : Binding} (hi : s.binding? i = some b) :
      (i = slot ∧ b = new) ∨ (i ≠ slot ∧ r.binding? i = some b) := by
    rw [hb] at hi
    split at hi
    · cases hi
      exact .inl ⟨‹_›, rfl⟩
    · exact .inr ⟨‹_›, hi⟩
  refine ⟨fun i b hi => ?_, fun i j b c hi hj hbc => ?_, fun p hlive => ?_⟩
  · rw [live?_concat hp]
    rcases hcases hi with ⟨rfl, rfl⟩ | ⟨-, hi⟩
    · rw [if_pos hnew]
    · rw [if_neg (hold hi)]
      exact h.serves i b hi
  · rcases hcases hi with ⟨rfl, rfl⟩ | ⟨-, hi⟩ <;> rcases hcases hj with ⟨rfl, rfl⟩ | ⟨-, hj⟩
    · rfl
    · exact absurd (hbc.symm.trans hnew) (hold hj)
    · exact absurd (hbc.trans hnew) (hold hi)
    · exact h.apart i j b c hi hj hbc
  · rw [live?_concat hp] at hlive
    split at hlive
    · rename_i hlast
      exact ⟨slot, new, by rw [hb, if_pos rfl], hnew.trans hlast.symm⟩
    · obtain ⟨i, b, hi, rfl⟩ := h.bound p hlive
      refine ⟨i, b, ?_, rfl⟩
      rw [hb, if_neg, hi]
      rintro rfl
      rw [hfree] at hi
      cases hi

theorem unregister (h : r.Manned) (route : String) : (r.unregister route).Manned := by
  refine h.unbind (some route) (live?_unregister r route) fun i => ?_
  cases i with
  | some i => simpa [binding?] using r.get?_unregister route i
  | none => exact (r.rest_unregister route).2.1

/-- A route that is bound anew loses first the binding that it has. -/
theorem register (h : r.Manned) (route : String) (endpoint : Nat) (isLocal : Bool) :
    (r.register route endpoint isLocal).Manned := by
  have hfree : Manned { r.cancelPumpOf (r.routes.get? route) with
      routes := r.routes.erase route } := by
    refine h.unbind (some route) (live?_cancelPumpOf r _) fun i => ?_
    cases i with
    | some i => simp [binding?]
    | none => exact binding?_cancelPumpOf r _ none
  refine hfree.bind (some route)
    ⟨endpoint, isLocal, (r.cancelPumpOf (r.routes.get? route)).pumps.length⟩ ?_ rfl rfl fun i => ?_
  · simp [binding?]
  · cases i with
    | some i =>
      simp only [binding?, get?_register, Registry.get?_erase, Option.some.injEq]
      split <;> rfl
    | none => rfl

theorem clearUplink (h : r.Manned) : r.clearUplink.Manned := by
  refine h.unbind none (live?_cancelPumpOf r _) fun i => ?_
  cases i with
  | some i => exact binding?_cancelPumpOf r _ (some i)
  | none => rfl

theorem setUplink (h : r.Manned) (endpoint : Nat) : (r.setUplink endpoint).Manned := by
  refine h.clearUplink.bind none ⟨endpoint, false, (r.cancelPumpOf r.uplink).pumps.length⟩
    rfl rfl rfl fun i => ?_
  cases i <;> rfl

/-- Every binding keeps a pump to itself by all operations but the shutdown. -/
theorem table (h : r.Manned) (op : Operation) (ho : op ≠ .shutdown) : (op.table r).Manned := by
  cases op with
  | register route endpoint isLocal => exact h.register route endpoint isLocal
  | unregister route => exact h.unregister route
  | setUplink endpoint => exact h.setUplink endpoint
  | clearUplink => exact h.clearUplink
  | withdraw route token =>
    cases token <;> exact h.congr (fun _ => rfl) fun i => by cases i <;> rfl
  | setDefault route => exact h.congr (fun _ => rfl) fun i => by cases i <;> rfl
  | accept accepted minted => exact h.congr (fun _ => rfl) fun i => by cases i <;> rfl
  | shutdown => exact absurd rfl ho

end Manned

theorem length_cancelPumpOf (r : Router) (b : Option Binding) :
    (r.cancelPumpOf b).pumps.length = r.pumps.length := by
  cases b <;> simp [cancelPumpOf, cancelPump]

/-- A pump that is there goes on after an operation as it did, unless it is displaced. -/
theorem live?_table {op : Operation} (ho : r.closed = true → op ≠ .shutdown)
    (hp : p < r.pumps.length) :
    (op.table r).live? p = if p ∈ r.displaced op then none else r.live? p := by
  have hold (b : Option Binding) : p ≠ (r.cancelPumpOf b).pumps.length := by
    rw [length_cancelPumpOf]
    omega
  cases op with
  | register route endpoint isLocal =>
    rw [Operation.table, live?_concat (r := r.cancelPumpOf (r.routes.get? route)) rfl,
      if_neg (hold _), live?_cancelPumpOf]
    simp [displaced, binding?]
  | unregister route => simp [Operation.table, live?_unregister, displaced]
  | setUplink endpoint =>
    rw [Operation.table, live?_concat (r := r.cancelPumpOf r.uplink) rfl, if_neg (hold _),
      live?_cancelPumpOf]
    simp [displaced, binding?]
  | clearUplink =>
    have hlive : r.clearUplink.live? p = (r.cancelPumpOf r.uplink).live? p := rfl
    rw [Operation.table, hlive, live?_cancelPumpOf]
    simp [displaced, binding?]
  | withdraw route token => cases token <;> simp [displaced] <;> rfl
  | setDefault route => simp [displaced]; rfl
  | accept accepted minted => simp [displaced]; rfl
  | shutdown =>
    rw [Operation.table, shutdown, if_neg fun hc => ho hc rfl]
    exact live?_foldl_cancelPump r.boundPumps r p

theorem closed_shutdown (r : Router) : r.shutdown.closed = true := by
  rw [shutdown]
  split
  · assumption
  · rfl

theorem length_table (op : Operation) (r : Router) : r.pumps.length ≤ (op.table r).pumps.length := by
  have h := congrArg List.length (holds_table op r)
  simp only [holds, List.length_map, List.length_append] at h
  omega

theorem mem_bindings {e : String × Binding} :
    e ∈ r.bindings ↔ ∃ slot, e.1 = origin slot ∧ r.binding? slot = some e.2 := by
  rw [bindings, List.mem_append]
  constructor
  · rintro (h | h)
    · exact ⟨some e.1, rfl, Registry.get?_eq_some_iff.2 h⟩
    · obtain ⟨b, hb, rfl⟩ : ∃ b, r.uplink = some b ∧ (uplinkRoute, b) = e := by simpa using h
      exact ⟨none, rfl, hb⟩
  · obtain ⟨i, b⟩ := e
    rintro ⟨slot, rfl, hb⟩
    cases slot with
    | some route => exact .inl (Registry.get?_eq_some_iff.1 hb)
    | none =>
      have hb : r.uplink = some b := hb
      exact .inr (by simp [hb, origin])

theorem boundPumps_eq (r : Router) : r.boundPumps = r.bindings.map fun e => e.2.pump := by
  simp [boundPumps, bindings, Option.toList_map]

theorem mem_boundPumps : p ∈ r.boundPumps ↔ ∃ slot b, r.binding? slot = some b ∧ b.pump = p := by
  rw [boundPumps_eq, List.mem_map]
  constructor
  · rintro ⟨e, he, rfl⟩
    obtain ⟨slot, -, hb⟩ := mem_bindings.1 he
    exact ⟨slot, e.2, hb, rfl⟩
  · rintro ⟨slot, b, hb, rfl⟩
    exact ⟨(origin slot, b), mem_bindings.2 ⟨slot, rfl, hb⟩, rfl⟩

/-- No pump serves two bindings. -/
theorem Manned.nodup_boundPumps (h : r.Manned) : r.boundPumps.Nodup := by
  have hroute {e : String × Binding} (he : e ∈ r.routes.entries) :
      r.binding? (some e.1) = some e.2 := Registry.get?_eq_some_iff.2 he
  rw [boundPumps, List.nodup_append]
  refine ⟨?_, ?_, ?_⟩
  · refine List.Nodup.map_on (fun e he f hf hef => ?_) r.routes.distinct.of_map
    have hkey : some e.1 = some f.1 := h.apart _ _ _ _ (hroute he) (hroute hf) hef
    have hbinding : some e.2 = some f.2 := by rw [← hroute he, hkey, hroute hf]
    exact Prod.ext (Option.some.inj hkey) (Option.some.inj hbinding)
  · cases r.uplink <;> simp
  · intro p hp q hq
    obtain ⟨e, he, rfl⟩ := List.mem_map.1 hp
    obtain ⟨b, hb, rfl⟩ : ∃ b, r.uplink = some b ∧ b.pump = q := by simpa using hq
    intro hpq
    cases h.apart (some e.1) none e.2 b (hroute he) hb hpq

theorem Cancelled.table (h : r.Cancelled p) (op : Operation) : (op.table r).Cancelled p := by
  by_cases ho : r.closed = true ∧ op = .shutdown
  · obtain ⟨hc, rfl⟩ := ho
    rwa [Operation.table, shutdown, if_pos hc]
  · rw [cancelled_iff] at h ⊢
    refine ⟨Nat.lt_of_lt_of_le h.1 (length_table op r), ?_⟩
    rw [live?_table (not_and.1 ho) h.1, h.2, ite_self]

/-- A pump whose binding is replaced or removed is cancelled. -/
theorem Manned.cancelled_displaced (h : r.Manned) (ho : r.closed = false) {op : Operation}
    (hp : p ∈ r.displaced op) : (op.table r).Cancelled p := by
  have hbound : ∃ slot b, r.binding? slot = some b ∧ b.pump = p := by
    cases op with
    | register route | unregister route =>
      obtain ⟨b, hb, hbp⟩ := by simpa [displaced] using hp
      exact ⟨_, b, hb, hbp⟩
    | setUplink | clearUplink =>
      obtain ⟨b, hb, hbp⟩ := by simpa [displaced] using hp
      exact ⟨_, b, hb, hbp⟩
    | shutdown => exact mem_boundPumps.1 hp
    | withdraw | setDefault | accept => simp [displaced] at hp
  obtain ⟨slot, b, hb, rfl⟩ := hbound
  have hlt := lt_of_live? (by rw [h.serves slot b hb]; simp : r.live? b.pump ≠ none)
  have hopen : r.closed = true → op ≠ .shutdown := by simp [ho]
  rw [cancelled_iff]
  exact ⟨Nat.lt_of_lt_of_le hlt (length_table op r), by rw [live?_table hopen hlt, if_pos hp]⟩

/-- The bindings and the pumps are as before, but for what the pumps hold. -/
structure Steady (r s : Router) : Prop where
  live : ∀ p, s.live? p = r.live? p
  bindings : ∀ slot, s.binding? slot = r.binding? slot
  length : s.pumps.length = r.pumps.length
  closed : s.closed = r.closed

theorem steady_noted (r : Router) (m : Envelope) (source : String) :
    Steady r (Exchange.noted r m source) := by
  rw [Exchange.tables_noted]
  exact ⟨fun _ => rfl, fun slot => by cases slot <;> rfl, rfl, rfl⟩

namespace Steady

theorem refl (r : Router) : Steady r r := ⟨fun _ => rfl, fun _ => rfl, rfl, rfl⟩

theorem trans {t : Router} (h : Steady r s) (g : Steady s t) : Steady r t where
  live p := (g.live p).trans (h.live p)
  bindings slot := (g.bindings slot).trans (h.bindings slot)
  length := g.length.trans h.length
  closed := g.closed.trans h.closed

theorem manned (h : Steady r s) (hr : r.Manned) : s.Manned := hr.congr h.live h.bindings

theorem cancelled (h : Steady r s) (hp : r.Cancelled p) : s.Cancelled p := by
  rw [cancelled_iff] at hp ⊢
  rwa [h.live, h.length]

end Steady

theorem held?_of_pump (hu : r.pumps[p]? = some u) : r.held? p = u.held := by
  rw [held?, hu, Option.bind_some]

theorem held?_eq (r : Router) (p : Nat) : r.held? p = r.holds[p]?.bind Prod.snd := by
  simp [held?, holds, Pump.hold, Function.comp_def, Option.bind_map]

theorem held?_congr (h : s.holds = r.holds) (p : Nat) : s.held? p = r.held? p := by
  rw [held?_eq, held?_eq, h]

/-- A pump that comes with an operation has taken nothing yet. -/
theorem held?_table (op : Operation) (r : Router) (p : Nat) :
    (op.table r).held? p = r.held? p := by
  rw [held?_eq, holds_table, held?_eq]
  rcases Nat.lt_or_ge p r.holds.length with hlt | hge
  · rw [List.getElem?_append_left hlt]
  · rw [List.getElem?_append_right hge, List.getElem?_eq_none hge]
    cases op.bound? with
    | none => rfl
    | some k => cases p - r.holds.length <;> rfl

end Router

namespace Exchange

variable {σ : Type} {x y : Exchange σ} {p q : Nat} {u : Pump} {m : Envelope}

theorem steady_setPump (x : Exchange σ) (p : Nat) (held : Option Envelope) :
    Router.Steady x.router (x.setPump p held).router where
  live q := by
    rw [Router.live?, Router.getElem?_of_modify (r := x.router) rfl, Router.live?]
    cases x.router.pumps[q]? with
    | none => rfl
    | some u => by_cases hq : p = q <;> simp [hq]
  bindings slot := by cases slot <;> rfl
  length := List.length_modify ..
  closed := rfl

theorem steady_route (x : Exchange σ) (m : Envelope) (source : String) :
    Router.Steady x.router (x.route m source).1.router := by
  rw [router_route]
  exact Router.steady_noted _ _ _

theorem held?_setPump (hu : x.router.pumps[p]? = some u) (held : Option Envelope) (q : Nat) :
    (x.setPump p held).router.held? q = if p = q then held else x.router.held? q := by
  rw [Router.held?, Router.getElem?_of_modify (r := x.router) rfl, Router.held?]
  by_cases hq : p = q
  · subst hq
    simp [hu]
  · cases x.router.pumps[q]? <;> simp [hq]

theorem fetch_of_cancelled (hp : x.router.Cancelled p) : x.fetch p ≠ .held y := by
  obtain ⟨u, hu, hc⟩ := hp
  simp [fetch, hu, hc]

end Exchange

namespace Pumping

open Exchange

variable {σ : Type} {x y z : Exchange σ} {p : Nat}

/-- Who does something at an exchange. -/
inductive Act where
  | operate (op : Operation)
  /-- A pump takes an envelope. -/
  | fetch (p : Nat)
  /-- A pump routes the envelope that it has taken. -/
  | forward (p : Nat) (m : Envelope)
  /-- Somebody else has an envelope routed. -/
  | route (m : Envelope) (source : String)
  | aside

/-- What a pump routes. -/
def Act.forwarded? (p : Nat) : Act → Option Envelope
  | .forward q m => if q = p then some m else none
  | _ => none

inductive Step (x : Exchange σ) : Act → Exchange σ → Prop
  | operate (op : Operation) : Step x (.operate op) (op.apply x)
  | fetch {p : Nat} {u : Pump} {y : Exchange σ} (hu : x.router.pumps[p]? = some u)
      (hidle : u.held = none) (hy : x.fetch p = .held y) : Step x (.fetch p) y
  | forward {p : Nat} {u : Pump} {m : Envelope} (hu : x.router.pumps[p]? = some u)
      (hm : u.held = some m) : Step x (.forward p m) (x.forward p).1
  | route (m : Envelope) (source : String) : Step x (.route m source) (x.route m source).1
  /-- Endpoints say something, take what was handed to them, come or go. -/
  | aside {y : Exchange σ} (h : y.router = x.router) : Step x .aside y

inductive Run : Exchange σ → List Act → Exchange σ → Prop
  | nil (x : Exchange σ) : Run x [] x
  | cons {x y z : Exchange σ} {a : Act} {log : List Act} (h : Step x a y) (hr : Run y log z) :
      Run x (a :: log) z

/-- What a pump routes in the course of a run. -/
def forwardedBy (p : Nat) (log : List Act) : List Envelope := log.filterMap (Act.forwarded? p)

/-- Only an operation has to do with bindings, or cancels a pump. -/
theorem Step.steady {a : Act} (h : Step x a y) :
    (∃ op, a = .operate op ∧ y = op.apply x) ∨ Router.Steady x.router y.router := by
  cases h with
  | operate op => exact .inl ⟨op, rfl, rfl⟩
  | fetch hu hidle hy =>
    obtain ⟨e, rest, he, m, hm, rfl⟩ := fetch_cases hu hy
    exact .inr (steady_setPump (x.modify _ _) _ _)
  | @forward p u m hu hm =>
    rw [forward_eq hu, hm]
    exact .inr ((steady_setPump x p none).trans (steady_route _ m u.source))
  | route m source => exact .inr (steady_route x m source)
  | aside h =>
    rw [h]
    exact .inr (.refl x.router)

theorem Step.closed {a : Act} (h : Step x a y) (hx : x.router.closed = true) :
    y.router.closed = true := by
  rcases h.steady with ⟨op, -, rfl⟩ | hs
  · exact op.closed_apply hx
  · exact hs.closed.trans hx

theorem Step.manned {a : Act} (h : Step x a y) (hx : x.router.Manned)
    (hy : y.router.closed = false) : y.router.Manned := by
  rcases h.steady with ⟨op, -, rfl⟩ | hs
  · rw [Relay.router_apply] at hy ⊢
    refine hx.table op ?_
    rintro rfl
    rw [Operation.table, Router.closed_shutdown] at hy
    cases hy
  · exact hs.manned hx

theorem Step.cancelled {a : Act} (h : Step x a y) (hp : x.router.Cancelled p) :
    y.router.Cancelled p := by
  rcases h.steady with ⟨op, -, rfl⟩ | hs
  · rw [Relay.router_apply]
    exact hp.table op
  · exact hs.cancelled hp

/-- A pump that is cancelled takes nothing; what it holds, it may still route. -/
theorem Step.held {a : Act} (h : Step x a y) (hp : x.router.Cancelled p) :
    (a.forwarded? p).toList ++ (y.router.held? p).toList = (x.router.held? p).toList := by
  cases h with
  | operate op =>
    rw [Relay.router_apply, Router.held?_table]
    rfl
  | @fetch q u y hu hidle hy =>
    have hq : q ≠ p := fun hq => fetch_of_cancelled hp (hq ▸ hy)
    obtain ⟨e, rest, he, m, hm, rfl⟩ := fetch_cases hu hy
    rw [held?_setPump (x := x.modify _ _) hu, if_neg hq]
    rfl
  | @forward q u m hu hm =>
    have hrouted : (x.forward q).1.router.held? p = if q = p then none else x.router.held? p := by
      rw [← held?_setPump hu]
      exact Router.held?_congr (holds_forward hu hm) p
    rw [hrouted, Act.forwarded?]
    by_cases hq : q = p
    · subst hq
      simp [Router.held?_of_pump hu, hm]
    · simp [hq]
  | route m source =>
    rw [Router.held?_congr (holds_route x m source)]
    rfl
  | aside h =>
    rw [h]
    rfl

namespace Run

variable {log : List Act}

theorem closed (h : Run x log y) (hx : x.router.closed = true) : y.router.closed = true := by
  induction h with
  | nil x => exact hx
  | cons h _ ih => exact ih (h.closed hx)

/-- As long as the router is not shut down, the pumps that go on are those of what is bound. -/
theorem manned (h : Run x log y) (hx : x.router.Manned) (hy : y.router.closed = false) :
    y.router.Manned := by
  induction h with
  | nil x => exact hx
  | @cons x v y a log h hr ih =>
    refine ih (h.manned hx ?_) hy
    by_contra hv
    have := hr.closed (Bool.eq_true_of_not_eq_false hv)
    rw [hy] at this
    cases this

/-- What a cancelled pump routes from then on is what it has taken before. -/
theorem dismissed (h : Run x log y) (hp : x.router.Cancelled p) :
    y.router.Cancelled p ∧
      forwardedBy p log ++ (y.router.held? p).toList = (x.router.held? p).toList := by
  induction h with
  | nil x => exact ⟨hp, rfl⟩
  | @cons x v y a log h hr ih =>
    obtain ⟨hy, hlog⟩ := ih (h.cancelled hp)
    refine ⟨hy, ?_⟩
    have hstep := h.held hp
    rw [← hlog] at hstep
    rw [← hstep, ← List.append_assoc, forwardedBy, forwardedBy, List.filterMap_cons]
    cases a.forwarded? p <;> rfl

end Run

/-- What can be said of the pumps of a router that has not been shut down. -/
structure Followed (x : Exchange σ) : Prop where
  /-- Whatever is bound has a pump that goes on, and takes from the endpoint that is bound. -/
  serves : ∀ e ∈ x.router.bindings, x.router.live? e.2.pump = some (e.1, e.2.endpoint)
  /-- Each has its own. -/
  once : x.router.boundPumps.Nodup
  /-- And no other pump goes on. -/
  only : ∀ p, p ∈ x.router.boundPumps ↔ ∃ u, x.router.pumps[p]? = some u ∧ u.cancelled = false
  /-- A pump whose binding is replaced or removed is cancelled for good, and routes nothing but what
  it has taken before. -/
  dismissed : ∀ op, ∀ p ∈ x.router.displaced op, ∀ log z, Run (op.apply x) log z →
    z.router.Cancelled p ∧
      forwardedBy p log ++ (z.router.held? p).toList = (x.router.held? p).toList

theorem followed_of_manned (h : x.router.Manned) (ho : x.router.closed = false) : Followed x where
  serves e he := by
    obtain ⟨slot, hs, hb⟩ := Router.mem_bindings.1 he
    rw [hs]
    exact h.serves slot e.2 hb
  once := h.nodup_boundPumps
  only p := by
    rw [Router.mem_boundPumps, ← Router.live?_ne_none_iff]
    constructor
    · rintro ⟨slot, b, hb, rfl⟩
      simp [h.serves slot b hb]
    · exact h.bound p
  dismissed op p hp log z hr := by
    have hc := h.cancelled_displaced ho hp
    rw [← Relay.router_apply] at hc
    obtain ⟨hz, hlog⟩ := hr.dismissed hc
    refine ⟨hz, ?_⟩
    rw [hlog, Relay.router_apply, Router.held?_table]

/-- Whatever is called at a router and in whatever order the pumps take and route, as long as it is
not shut down there is one pump for each registered route and for the uplink, and no other; and the
pumps that lose their bindings take nothing any more, also those that lose it to the shutdown. -/
theorem pumps_followed {log : List Act} (h : Run x log y) (hx : x.router = {})
    (hy : y.router.closed = false) : Followed y := by
  refine followed_of_manned (h.manned ?_ hy) hy
  rw [hx]
  exact .empty

/-- An endpoint that has something to say, and another. -/
def landing : Exchange Unit where
  endpoints := [
    .mailbox { complaint := "closed", outbox.items := [{ command := some "hi" }, {}] },
    .mailbox { complaint := "closed" }]

/-- A route is bound to the same endpoint again when its pump has taken something, and then the
uplink to another and to that one too. -/
theorem landing_followed : ∃ log y, Run landing log y ∧ landing.router = {} ∧
    y.router.closed = false ∧ y.router.boundPumps = [1, 3] ∧
    y.router.held? 0 = some { command := some "hi" } ∧ Followed y := by
  have h : Run landing _ _ :=
    .cons (.operate (.register "a" 0 false)) <|
    .cons (.fetch (p := 0) rfl rfl rfl) <|
    .cons (.operate (.register "a" 0 false)) <|
    .cons (.operate (.setUplink 1)) <|
    .cons (.operate (.setUplink 0)) <|
    .nil _
  exact ⟨_, _, h, rfl, rfl, rfl, rfl, pumps_followed h rfl rfl⟩

end Pumping

end Switchboard
