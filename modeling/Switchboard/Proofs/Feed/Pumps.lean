import Switchboard.Proofs.Relay.Queues

/-! The pump that serves one endpoint, and what leaves it alone: as long as nobody else has to do
with the route of the endpoint, it stays the only one, and nobody cancels it. -/
namespace Switchboard

namespace Relay.Operation

/-- The route whose binding an operation replaces or removes. -/
def route? : Operation → Option String
  | register route _ _ | unregister route => some route
  | _ => none

/-- The operation has nothing to do with an endpoint nor with the route that it is bound to. -/
def Spares (op : Operation) (endpoint : Nat) (route : Option String) : Prop :=
  op.bound? ≠ some endpoint ∧ ∀ q, op.route? = some q → route ≠ some q

end Relay.Operation

namespace Router

variable {r s t : Router} {k p q : Nat} {own : Option String} {lives : Prop} {u : Pump}
  {b : Binding} {route : String}

/-- The pump of a binding is there, and serves the endpoint that is bound. -/
def Leads (r : Router) (b : Binding) : Prop :=
  r.pumps[b.pump]?.map Pump.endpoint = some b.endpoint

/-- No pump serves the endpoint. -/
def Unserved (r : Router) (k : Nat) : Prop := ∀ u ∈ r.pumps, u.endpoint ≠ k

/-- One pump serves the endpoint, and no other does. -/
structure Serves (r : Router) (k p : Nat) (u : Pump) : Prop where
  found : r.pumps[p]? = some u
  endpoint : u.endpoint = k
  only : ∀ q v, r.pumps[q]? = some v → v.endpoint = k → q = p

/-- All bindings have their pumps, and the endpoint is bound to its own route at most. -/
structure Bindings (r : Router) (k : Nat) (own : Option String) : Prop where
  routes : ∀ q b, r.routes.get? q = some b → r.Leads b ∧ (b.endpoint = k → own = some q)
  uplink : ∀ b, r.uplink = some b → r.Leads b ∧ b.endpoint ≠ k

/-- What has become of the pump of an endpoint from `r` to `s`: it may be cancelled, though not
where `lives` holds and the router is not shut down, and nothing else happens to it. -/
structure Keeps (k : Nat) (own : Option String) (lives : Prop) (r s : Router) : Prop where
  closed : r.closed = true → s.closed = true
  bindings : r.Bindings k own → s.Bindings k own
  unserved : r.Unserved k → s.Unserved k
  serves : ∀ p u, r.Bindings k own → r.Serves k p u →
    ∃ c, s.Serves k p { u with cancelled := c } ∧ (lives → s.closed = r.closed → c = u.cancelled)

namespace Keeps

theorem trans {lives' : Prop} (h : Keeps k own lives r s) (g : Keeps k own lives' s t) :
    Keeps k own (lives ∧ lives') r t where
  closed hc := g.closed (h.closed hc)
  bindings hb := g.bindings (h.bindings hb)
  unserved hu := g.unserved (h.unserved hu)
  serves p u hb hu := by
    obtain ⟨c, hs, hc⟩ := h.serves p u hb hu
    obtain ⟨c', ht, hc'⟩ := g.serves p _ (h.bindings hb) hs
    refine ⟨c', ht, fun hl he => ?_⟩
    -- Once shut down, the router stays so; hence it was not shut down halfway either.
    have hsr : s.closed = r.closed := by
      cases hr : r.closed with
      | true => exact h.closed hr
      | false =>
        by_contra hs
        have := g.closed (by simpa using hs)
        simp [he, hr] at this
    exact (hc' hl.2 (he.trans hsr.symm)).trans (hc hl.1 hsr)

theorem weaken {lives' : Prop} (h : Keeps k own lives r s) (hl : lives' → lives) :
    Keeps k own lives' r s where
  closed := h.closed
  bindings := h.bindings
  unserved := h.unserved
  serves p u hb hu := by
    obtain ⟨c, hs, hc⟩ := h.serves p u hb hu
    exact ⟨c, hs, fun h' => hc (hl h')⟩

/-- Bindings may go, and whatever is not about bindings and pumps may change. -/
theorem of_tables (hp : s.pumps = r.pumps)
    (hr : ∀ q b, s.routes.get? q = some b → r.routes.get? q = some b)
    (hu : ∀ b, s.uplink = some b → r.uplink = some b) (hc : s.closed = r.closed) :
    Keeps k own True r s where
  closed h := hc.trans h
  bindings hb := by
    have hl (b : Binding) : s.Leads b = r.Leads b := by rw [Leads, hp, Leads]
    exact ⟨fun q b h => hl b ▸ hb.routes q b (hr q b h), fun b h => hl b ▸ hb.uplink b (hu b h)⟩
  unserved h := by
    rw [Unserved, hp]
    exact h
  serves p u _ h := by
    refine ⟨u.cancelled, ?_, fun _ _ => rfl⟩
    exact ⟨hp ▸ h.found, h.endpoint, fun q v hv => h.only q v (hp ▸ hv)⟩

theorem refl (r : Router) : Keeps k own True r r :=
  of_tables rfl (fun _ _ h => h) (fun _ h => h) rfl

end Keeps

section Modify

variable {f : Pump → Pump} (hp : s.pumps = r.pumps.modify p f)
  (hf : ∀ u, (f u).endpoint = u.endpoint)

include hp

theorem getElem?_of_modify (q : Nat) :
    s.pumps[q]? = r.pumps[q]?.map fun u => if p = q then f u else u := by
  rw [hp, List.getElem?_modify]
  cases r.pumps[q]? with
  | none => rfl
  | some u => by_cases hq : p = q <;> simp [hq]

include hf

/-- A pump that is changed serves its endpoint as before. -/
theorem endpoint_of_modify {v : Pump} (hv : s.pumps[q]? = some v) :
    ∃ u, r.pumps[q]? = some u ∧ v = (if p = q then f u else u) ∧ u.endpoint = v.endpoint := by
  rw [getElem?_of_modify hp] at hv
  obtain ⟨u, hu, rfl⟩ := Option.map_eq_some_iff.1 hv
  refine ⟨u, hu, rfl, ?_⟩
  split
  · exact (hf u).symm
  · rfl

theorem leads_modify : s.Leads b = r.Leads b := by
  rw [Leads, getElem?_of_modify hp, Leads]
  cases r.pumps[b.pump]? with
  | none => rfl
  | some u => by_cases hq : p = b.pump <;> simp [hq, hf]

theorem Bindings.modify (h : r.Bindings k own) (hr : s.routes = r.routes)
    (hu : s.uplink = r.uplink) : s.Bindings k own where
  routes q b hb := by
    rw [leads_modify hp hf]
    exact h.routes q b (hr ▸ hb)
  uplink b hb := by
    rw [leads_modify hp hf]
    exact h.uplink b (hu ▸ hb)

theorem Unserved.modify (h : r.Unserved k) : s.Unserved k := by
  intro v hv
  obtain ⟨q, hq⟩ := List.mem_iff_getElem?.1 hv
  obtain ⟨u, hu, -, he⟩ := endpoint_of_modify hp hf hq
  exact he ▸ h u (List.mem_of_getElem? hu)

theorem Serves.modify (h : r.Serves k q u) : s.Serves k q (if p = q then f u else u) where
  found := by rw [getElem?_of_modify hp, h.found, Option.map_some]
  endpoint := by
    split
    · exact (hf u).trans h.endpoint
    · exact h.endpoint
  only i v hv he := by
    obtain ⟨w, hw, -, hwv⟩ := endpoint_of_modify hp hf hv
    exact h.only i w hw (hwv.trans he)

end Modify

/-- To cancel a pump of another endpoint is nothing to this one. -/
theorem keeps_cancelPump (r : Router) (p : Nat) :
    Keeps k own (∀ u, r.pumps[p]? = some u → u.endpoint ≠ k) r (r.cancelPump p) where
  closed h := h
  bindings h := h.modify rfl (fun _ => rfl) rfl rfl
  unserved h := h.modify rfl fun _ => rfl
  serves q u _ h := by
    have hs := h.modify (s := r.cancelPump p) rfl fun _ => rfl
    by_cases hpq : p = q
    · subst q
      exact ⟨true, by simpa using hs, fun hl => absurd h.endpoint (hl u h.found)⟩
    · exact ⟨u.cancelled, by simpa [hpq] using hs, fun _ _ => rfl⟩

theorem Leads.endpoint (h : r.Leads b) (hu : r.pumps[b.pump]? = some u) :
    u.endpoint = b.endpoint := by
  rw [Leads, hu] at h
  exact Option.some.inj h

/-- To cancel the pump of a binding is nothing to an endpoint that is not bound by it. -/
theorem keeps_cancelBound
    (hb : r.Bindings k own → r.Leads b ∧ (lives → b.endpoint ≠ k)) :
    Keeps k own lives r (r.cancelPump b.pump) := by
  have hk : Keeps k own _ r (r.cancelPump b.pump) := keeps_cancelPump r b.pump
  refine ⟨hk.closed, hk.bindings, hk.unserved, fun p u hr hu => ?_⟩
  obtain ⟨hleads, hne⟩ := hb hr
  obtain ⟨c, hs, hc⟩ := hk.serves p u hr hu
  refine ⟨c, hs, fun hl => hc fun v hv => ?_⟩
  rw [hleads.endpoint hv]
  exact hne hl

/-- The pump of another route is another. -/
theorem keeps_cancelRoute (r : Router) (q : String) :
    Keeps k own (own ≠ some q) r (r.cancelPumpOf (r.routes.get? q)) := by
  cases hb : r.routes.get? q with
  | none => exact (Keeps.refl r).weaken fun _ => trivial
  | some b =>
    refine keeps_cancelBound fun hr => ?_
    obtain ⟨hleads, hown⟩ := hr.routes q b hb
    exact ⟨hleads, fun hl he => hl (hown he)⟩

theorem keeps_cancelUplink (r : Router) : Keeps k own True r (r.cancelPumpOf r.uplink) := by
  cases hb : r.uplink with
  | none => exact .refl r
  | some b =>
    refine keeps_cancelBound fun hr => ?_
    obtain ⟨hleads, hne⟩ := hr.uplink b hb
    exact ⟨hleads, fun _ => hne⟩

theorem Leads.concat (h : r.Leads b) (hp : s.pumps = r.pumps ++ [u]) : s.Leads b := by
  obtain ⟨v, hv, he⟩ := Option.map_eq_some_iff.1 h
  have hlt := (List.getElem?_eq_some_iff.1 hv).1
  rw [Leads, hp, List.getElem?_append_left hlt, hv]
  exact congrArg some he

theorem leads_last (hp : s.pumps = r.pumps ++ [u]) (hb : b.pump = r.pumps.length)
    (he : b.endpoint = u.endpoint) : s.Leads b := by
  rw [Leads, hp, hb, he, List.getElem?_concat_length]
  rfl

/-- Another endpoint may be bound, to a route or as the uplink. -/
theorem keeps_concat (hk : u.endpoint ≠ k) (hp : s.pumps = r.pumps ++ [u])
    (hr : ∀ q b, s.routes.get? q = some b →
      r.routes.get? q = some b ∨ b.pump = r.pumps.length ∧ b.endpoint = u.endpoint)
    (hu : ∀ b, s.uplink = some b →
      r.uplink = some b ∨ b.pump = r.pumps.length ∧ b.endpoint = u.endpoint)
    (hc : s.closed = r.closed) : Keeps k own True r s where
  closed h := hc.trans h
  bindings h := by
    constructor
    · intro q b hb
      rcases hr q b hb with hb | ⟨hlast, he⟩
      · exact ⟨(h.routes q b hb).1.concat hp, (h.routes q b hb).2⟩
      · exact ⟨leads_last hp hlast he, fun hbk => absurd (he.symm.trans hbk) hk⟩
    · intro b hb
      rcases hu b hb with hb | ⟨hlast, he⟩
      · exact ⟨(h.uplink b hb).1.concat hp, (h.uplink b hb).2⟩
      · exact ⟨leads_last hp hlast he, he ▸ hk⟩
  unserved h v hv := by
    rw [hp, List.mem_append, List.mem_singleton] at hv
    rcases hv with hv | rfl
    · exact h v hv
    · exact hk
  serves p v _ h := by
    refine ⟨v.cancelled, ⟨?_, h.endpoint, fun i w hw he => ?_⟩, fun _ _ => rfl⟩
    · rw [hp, List.getElem?_append_left (List.getElem?_eq_some_iff.1 h.found).1]
      exact h.found
    · rw [hp] at hw
      rcases Nat.lt_or_ge i r.pumps.length with hlt | hge
      · rw [List.getElem?_append_left hlt] at hw
        exact h.only i w hw he
      · rw [List.getElem?_append_right hge, List.getElem?_singleton] at hw
        split at hw
        · cases hw
          exact absurd he hk
        · cases hw

theorem keeps_foldl_cancelPump (ps : List Nat) (r : Router) :
    Keeps k own False r (ps.foldl cancelPump r) := by
  induction ps generalizing r with
  | nil => exact (Keeps.refl r).weaken nofun
  | cons p ps ih => exact ((keeps_cancelPump r p).trans (ih _)).weaken nofun

theorem keeps_shutdown (r : Router) : Keeps k own True r r.shutdown := by
  unfold shutdown
  cases hr : r.closed with
  | true => exact .refl r
  | false =>
    have hk : Keeps k own False r (r.boundPumps.foldl cancelPump r) :=
      keeps_foldl_cancelPump r.boundPumps r
    refine ⟨fun _ => rfl, fun hb => ?_, hk.unserved, fun p u hb hu => ?_⟩
    · exact ⟨(hk.bindings hb).routes, (hk.bindings hb).uplink⟩
    · obtain ⟨c, hs, -⟩ := hk.serves p u hb hu
      exact ⟨c, ⟨hs.found, hs.endpoint, hs.only⟩, fun _ he => absurd (he.trans hr) nofun⟩

theorem keeps_noted (r : Router) (m : Envelope) (source : String) :
    Keeps k own True r (Exchange.noted r m source) := by
  rw [Exchange.tables_noted]
  exact .of_tables rfl (fun _ _ h => h) (fun _ h => h) rfl

theorem keeps_register (r : Router) (q : String) {e : Nat} (he : e ≠ k) (isLocal : Bool) :
    Keeps k own (own ≠ some q) r (r.register q e isLocal) := by
  have hbind : Keeps k own True (r.cancelPumpOf (r.routes.get? q)) (r.register q e isLocal) := by
    refine keeps_concat (u := { source := q, endpoint := e }) he rfl ?_ (fun _ h => .inl h) rfl
    intro i b hb
    simp only [register, Registry.get?_insert] at hb
    split at hb
    · cases hb
      exact .inr ⟨rfl, rfl⟩
    · exact .inl hb
  exact ((keeps_cancelRoute r q).trans hbind).weaken fun h => ⟨h, trivial⟩

theorem keeps_unregister (r : Router) (q : String) :
    Keeps k own (own ≠ some q) r (r.unregister q) := by
  have hcancel : Keeps k own (own ≠ some q) r (r.cancelPumpOf (r.routes.get? q)) :=
    keeps_cancelRoute r q
  unfold unregister
  cases hb : r.routes.get? q with
  | none => exact (Keeps.refl r).weaken fun _ => trivial
  | some b =>
    rw [hb] at hcancel
    have hremove : Keeps k own True (r.cancelPump b.pump) (cancelPump { r with
        routes := r.routes.erase q
        announced := r.announced.filter fun _ via => via ≠ q } b.pump) := by
      refine .of_tables rfl (fun i c hc => ?_) (fun _ h => h) rfl
      simp only [cancelPump, Registry.get?_erase] at hc
      split at hc
      · cases hc
      · exact hc
    exact (hcancel.trans hremove).weaken fun h => ⟨h, trivial⟩

theorem keeps_setUplink (r : Router) {e : Nat} (he : e ≠ k) :
    Keeps k own True r (r.setUplink e) := by
  have hbind : Keeps k own True (r.cancelPumpOf r.uplink) (r.setUplink e) := by
    refine keeps_concat (u := { source := uplinkRoute, endpoint := e }) he rfl
      (fun _ _ h => .inl h) ?_ rfl
    intro b hb
    cases hb
    exact .inr ⟨rfl, rfl⟩
  exact ((keeps_cancelUplink r).trans hbind).weaken fun _ => ⟨trivial, trivial⟩

theorem keeps_clearUplink (r : Router) : Keeps k own True r r.clearUplink := by
  have hclear : Keeps k own True (r.cancelPumpOf r.uplink) r.clearUplink :=
    .of_tables rfl (fun _ _ h => h) nofun rfl
  exact ((keeps_cancelUplink r).trans hclear).weaken fun _ => ⟨trivial, trivial⟩

/-- Operations that bind other endpoints leave the pump, and if they are about other routes they
do not cancel it. -/
theorem keeps_table (op : Relay.Operation) (r : Router) (hb : op.bound? ≠ some k) :
    Keeps k own (∀ q, op.route? = some q → own ≠ some q) r (op.table r) := by
  have always (h : Keeps k own True r (op.table r)) :
      Keeps k own (∀ q, op.route? = some q → own ≠ some q) r (op.table r) :=
    h.weaken fun _ => trivial
  cases op with
  | register q e isLocal =>
    exact (keeps_register r q (fun he => hb (congrArg some he)) isLocal).weaken fun h => h q rfl
  | unregister q => exact (keeps_unregister r q).weaken fun h => h q rfl
  | setUplink e => exact always (keeps_setUplink r fun he => hb (congrArg some he))
  | clearUplink => exact always (keeps_clearUplink r)
  | shutdown => exact always (keeps_shutdown r)
  | withdraw q token =>
    cases token <;> exact always (.of_tables rfl (fun _ _ h => h) (fun _ h => h) rfl)
  | setDefault | accept => exact always (.of_tables rfl (fun _ _ h => h) (fun _ h => h) rfl)

/-- The endpoint is bound to a route of its own and gets its pump. -/
theorem serves_register (h : r.Unserved k) (route : String) (isLocal : Bool) :
    (r.register route k isLocal).Serves k (r.cancelPumpOf (r.routes.get? route)).pumps.length
      { source := route, endpoint := k } := by
  have hcancel : Keeps k none _ r (r.cancelPumpOf (r.routes.get? route)) :=
    keeps_cancelRoute r route
  have hfree := hcancel.unserved h
  refine ⟨List.getElem?_concat_length .., rfl, fun i v hv he => ?_⟩
  simp only [register] at hv
  by_contra hi
  have hmem : v ∈ (r.cancelPumpOf (r.routes.get? route)).pumps := by
    rcases Nat.lt_or_gt_of_ne hi with hlt | hgt
    · exact List.mem_of_getElem? ((List.getElem?_append_left hlt).symm.trans hv)
    · rw [List.getElem?_eq_none (by simpa using hgt)] at hv
      cases hv
  exact hfree v hmem he

theorem bindings_register (h : r.Bindings k none) (route : String) (isLocal : Bool) :
    (r.register route k isLocal).Bindings k (some route) := by
  have hold := (keeps_cancelRoute r route).bindings h
  constructor
  · intro q b hb
    simp only [register, Registry.get?_insert] at hb
    split at hb
    · cases hb
      exact ⟨leads_last rfl rfl rfl, fun _ => by rw [‹q = route›]⟩
    · obtain ⟨hl, hk⟩ := hold.routes q b hb
      exact ⟨hl.concat rfl, fun he => absurd (hk he) (by simp)⟩
  · intro b hb
    exact ⟨(hold.uplink b hb).1.concat rfl, (hold.uplink b hb).2⟩

end Router

namespace Exchange

variable {σ : Type} {x : Exchange σ} {k p : Nat} {own : Option String} {u : Pump}

/-- What another pump takes or routes is nothing to the pump of an endpoint. -/
theorem keeps_setPump (hu : x.router.pumps[p]? = some u) (hk : u.endpoint ≠ k)
    (held : Option Envelope) : Router.Keeps k own True x.router (x.setPump p held).router where
  closed h := h
  bindings h := h.modify rfl (fun _ => rfl) rfl rfl
  unserved h := h.modify rfl fun _ => rfl
  serves q v _ h := by
    have hs := h.modify (s := (x.setPump p held).router) rfl fun _ => rfl
    have hpq : p ≠ q := by
      rintro rfl
      rw [h.found] at hu
      cases hu
      exact hk h.endpoint
    exact ⟨v.cancelled, by simpa [hpq] using hs, fun _ _ => rfl⟩

theorem serves_setPump (h : x.router.Serves k p u) (held : Option Envelope) :
    (x.setPump p held).router.Serves k p { u with held } := by
  simpa using h.modify (s := (x.setPump p held).router) rfl fun _ => rfl

theorem bindings_setPump (h : x.router.Bindings k own) (p : Nat) (held : Option Envelope) :
    (x.setPump p held).router.Bindings k own := h.modify rfl (fun _ => rfl) rfl rfl

theorem length_handAll (hs : List Handing) (x : Exchange σ) :
    (x.handAll hs).endpoints.length = x.endpoints.length := by
  induction hs generalizing x with
  | nil => rfl
  | cons h hs ih => exact (ih _).trans (List.length_modify ..)

/-- The pump of each binding is there and serves the endpoint that is bound, and no pump waits for
an endpoint that is still to come. -/
structure Tidy (x : Exchange σ) : Prop where
  routes : ∀ q b, x.router.routes.get? q = some b → x.router.Leads b
  uplink : ∀ b, x.router.uplink = some b → x.router.Leads b
  pumps : ∀ u ∈ x.router.pumps, u.endpoint < x.endpoints.length

/-- Endpoints that are still to come are not bound and have no pump. -/
theorem Tidy.beyond (h : x.Tidy) (hk : x.endpoints.length ≤ k) :
    x.router.Bindings k none ∧ x.router.Unserved k := by
  have hne {b : Binding} (hl : x.router.Leads b) : b.endpoint ≠ k := by
    obtain ⟨u, hu, he⟩ := Option.map_eq_some_iff.1 hl
    have := h.pumps u (List.mem_of_getElem? hu)
    omega
  refine ⟨⟨fun i b hb => ?_, fun b hb => ?_⟩, fun u hu => ?_⟩
  · exact ⟨h.routes i b hb, fun he => absurd he (hne (h.routes i b hb))⟩
  · exact ⟨h.uplink b hb, hne (h.uplink b hb)⟩
  · exact Nat.ne_of_lt (Nat.lt_of_lt_of_le (h.pumps u hu) hk)

theorem tidy_of_beyond (h : ∀ k, x.endpoints.length ≤ k →
    x.router.Bindings k none ∧ x.router.Unserved k) : x.Tidy where
  routes q b hb := ((h _ (Nat.le_refl _)).1.routes q b hb).1
  uplink b hb := ((h _ (Nat.le_refl _)).1.uplink b hb).1
  pumps u hu := by
    by_contra hlt
    exact (h u.endpoint (Nat.le_of_not_lt hlt)).2 u hu rfl

/-- An exchange stays tidy as long as only endpoints are bound that are there. -/
theorem Tidy.apply {op : Relay.Operation} (h : x.Tidy)
    (ho : ∀ k, op.bound? = some k → k < x.endpoints.length) : (op.apply x).Tidy := by
  have hlength : (op.apply x).endpoints.length = x.endpoints.length := by
    rw [Relay.endpoints_apply, length_handAll]
  refine tidy_of_beyond fun k hk => ?_
  rw [hlength] at hk
  obtain ⟨hb, hu⟩ := h.beyond hk
  have hkeeps : Router.Keeps k none (∀ q, op.route? = some q → none ≠ some q) x.router
      (op.table x.router) :=
    Router.keeps_table op x.router fun he => Nat.not_lt.2 hk (ho k he)
  rw [Relay.router_apply]
  exact ⟨hkeeps.bindings hb, hkeeps.unserved hu⟩

end Exchange

end Switchboard
