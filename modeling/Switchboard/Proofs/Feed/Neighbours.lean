import Switchboard.Proofs.Admission.Sound
import Switchboard.Proofs.Feed.Run

/-! Other connections at the same router. Whatever a party to one of them does is among the steps
that are made around a connection, as long as their peers and their routes are different. -/
namespace Switchboard

variable {σ : Type} {x y : Exchange σ} {f : Feed σ} {o t : Served} {q : Closing}
  {es : List Event} {hs : List Handing} {j k : Nat} {own : Option String}

/-- A route that a party to a connection may bind or remove in its next step. -/
inductive Served.Touches (o : Served) (route : String) : Prop
  | binds (h : o.connection.admission = .admitted route)
  | serviceRemoves (h : o.connection.admission = .closing (.cancelled (some route)))
  | callRemoves (h : .cancelled (some route) ∈ o.calls)

namespace Exchange

/-- What others do around an endpoint that may be bound to a route of its own, and what the router
hands out for it. They may not bind the endpoint, nor anything to its route, nor remove that. -/
inductive Around (k : Nat) (own : Option String) (x : Exchange σ) :
    List Handing → Exchange σ → Prop
  | sent (m : Envelope) (source : String) :
      Around k own x (routeHandings x.router m source) (x.route m source).1
  | operate (op : Relay.Operation) (ho : op.Spares k own) :
      Around k own x (op.handings x.router) (op.apply x)
  /-- Something goes on at other endpoints. -/
  | aside {y : Exchange σ} (hr : y.router = x.router) (he : y.endpoints[k]? = x.endpoints[k]?) :
      Around k own x [] y

theorem around_refl (x : Exchange σ) : x.Around k own [] x := .aside rfl rfl

/-- What goes on within another endpoint is nothing to this one. -/
theorem around_within (h : x.Within j y) (hj : j ≠ k) : x.Around k own [] y :=
  .aside h.router (h.endpoints _ hj.symm)

/-- Clients are accepted, or no longer so. -/
theorem around_accept (x : Exchange σ) (accepted : Registry String Identity) (minted : Nat) :
    x.Around k own [] (Relay.Operation.apply x (.accept accepted minted)) :=
  .operate (.accept accepted minted) ⟨nofun, nofun⟩

/-- The calls that close other connections. -/
theorem around_closeStep (x : Exchange σ) (c : Connection)
    (hq : ∀ r, q = .cancelled (some r) → own ≠ some r) :
    ∃ hs, x.Around k own hs (c.closeStep x q).1 := by
  cases q with
  | cancelled r =>
    cases r with
    | none => exact ⟨_, around_refl x⟩
    | some r =>
      refine ⟨_, .operate (.unregister r) ⟨nofun, fun i hi => ?_⟩⟩
      cases hi
      exact hq r rfl
  | unregistered r => exact ⟨_, .sent _ r⟩
  | disposed token =>
    cases token with
    | none => exact ⟨_, around_refl x⟩
    | some token => exact ⟨_, around_accept x (x.router.accepted.erase token) x.minted⟩
  | _ => exact ⟨_, around_refl x⟩

/-- Whatever other clients are granted, it is by an id of their own. -/
theorem around_judge (x : Exchange σ) (first : Envelope) (hj : j ≠ k) :
    x.Around k own [] (Handshake.judge x j first).1 := by
  rcases Handshake.judge_cases x j first with ⟨_, y, g, hy, -, hjudge⟩ | ⟨text, e, -, hjudge⟩
  · obtain ⟨rfl, -, -⟩ := authenticate_ok hy
    rw [hjudge]
    exact around_accept x (x.router.accept g.token g.identity).accepted _
  · rw [hjudge]
    exact around_within (Handshake.within_reject _ _ _ text) hj

/-- The handshakes of other clients. -/
theorem around_handshake (x : Exchange σ) (h : Handshake) (hj : j ≠ k) :
    ∃ hs, x.Around k own hs (h.step x j).1 := by
  cases h with
  | received first => exact ⟨_, around_judge x first hj⟩
  | granted first g => exact ⟨_, .aside rfl (endpoints_modify_of_ne hj _)⟩
  | stored first g => exact ⟨_, .sent _ g.route⟩
  | announced first g => exact ⟨_, around_within (Handshake.within_step_announced g) hj⟩
  | _ => exact ⟨_, around_refl x⟩

end Exchange

open Exchange

/-- The service of another connection. -/
theorem Connection.around_step (x : Exchange σ) (c : Connection) (hp : c.peer ≠ k)
    (hb : ∀ r, c.admission = .admitted r → own ≠ some r)
    (hc : ∀ r, c.admission = .closing (.cancelled (some r)) → own ≠ some r) :
    ∃ hs, x.Around k own hs (c.step x).1 := by
  unfold step
  split
  · exact ⟨_, around_refl x⟩
  · exact around_handshake x _ hp
  · rename_i route ha
    unfold bindRoute
    split
    · exact ⟨_, around_refl x⟩
    · refine ⟨_, .operate (.register route c.peer false) ⟨?_, fun i hi => ?_⟩⟩
      · exact fun he => hp (Option.some.inj he)
      · cases hi
        exact hb route ha
  · exact ⟨_, around_refl x⟩
  · exact ⟨_, around_refl x⟩
  · rename_i ha
    exact around_closeStep x c fun r he => hc r (he ▸ ha)
  · unfold withdraw
    split
    · exact ⟨_, .operate (.withdraw _ _) ⟨nofun, nofun⟩⟩
    · exact ⟨_, around_refl x⟩
  · exact ⟨_, around_refl x⟩

/-- Whatever a party to another connection does, it does around this one. -/
theorem Served.Step.around (hs : o.Step x es y t) (hp : o.connection.peer ≠ k)
    (hr : ∀ r, o.Touches r → own ≠ some r) : ∃ hs, x.Around k own hs y := by
  cases hs with
  | service hs =>
    cases hs with
    | hear _ hh => exact ⟨_, around_within (Handshake.within_hear? hh) hp⟩
    | expire _ _ => exact ⟨_, around_refl x⟩
    | step _ _ =>
      exact o.connection.around_step x hp (fun r ha => hr r (.binds ha))
        fun r ha => hr r (.serviceRemoves ha)
  | read hr => exact ⟨_, around_within (Connection.reads_of_read? hr).2.beside.within hp⟩
  | write hw => exact ⟨_, around_within (Connection.beside_write? hw).within hp⟩
  | @call _ q _ _ _ hk _ hc =>
    have hq (r : String) (he : q = .cancelled (some r)) : own ≠ some r :=
      hr r (.callRemoves (List.mem_of_getElem? (he ▸ hk)))
    have hcall := around_closeStep (k := k) x o.connection hq
    rwa [hc] at hcall
  | _ => exact ⟨_, around_refl x⟩

/-- The route that a party may bind or remove is that of the grant. -/
theorem Standing.grant_of_touches {ev : List Event} {ph : Phase} {r : String}
    (h : Standing x o ev ph) (ht : o.Touches r) : ∃ g, ph.grant? = some g ∧ g.route = r := by
  have hf := h.fits
  cases ht with
  | binds ha =>
    rw [ha] at hf
    cases hf with
    | admitted g => exact ⟨g, rfl, rfl⟩
    | failing hf => cases hf
    | lost g hf => cases hf
  | serviceRemoves ha =>
    rw [ha] at hf
    cases hf with
    | failing hf => cases hf
    | lost g hf => cases hf
  | callRemoves hc =>
    obtain ⟨g, rfl, rfl⟩ := h.allowed _ hc
    exact ⟨g, rfl, rfl⟩

/-- Of any number of connections that have come to a router, each is around all others. -/
theorem Traffic.Reachable.around {w : Traffic σ} {s : Served} {i : Nat} (h : Reachable x w)
    (hj : w.served[j]? = some o) (hi : w.served[i]? = some s) (hne : j ≠ i)
    (hs : o.Step w.exchange es y t) :
    ∃ hs, w.exchange.Around s.connection.peer s.connection.guard.route hs y := by
  obtain ⟨φ, hφ⟩ := sound_of_reachable h
  refine hs.around (fun hp => hne (hφ.peers j i o s hj hi hp)) fun r ht hr => ?_
  obtain ⟨g, hg, hgr⟩ := (hφ.standing j o hj).grant_of_touches ht
  rw [(hφ.standing i s hi).guarded] at hr
  obtain ⟨g', hg', hgr'⟩ := Phase.grant_of_guarded? hr
  exact (hφ.distinct j i g g' hg hg' hne).1 (hgr.trans hgr'.symm)

namespace Feed

/-- What others do around the peer is a step around the connection. -/
theorem step_around (h : f.exchange.Around f.peer f.served.connection.guard.route hs y) :
    f.Step { f with exchange := y } := by
  cases h with
  | sent m source => exact .sent m source
  | operate op ho => exact .operate op ho
  | aside hr he => exact .aside hr (voice_congr he)

/-- A step of any party to another connection is a step around this one. -/
theorem step_neighbour (hs : o.Step f.exchange es y t) (hp : o.connection.peer ≠ f.peer)
    (hr : ∀ r, o.Touches r → f.served.connection.guard.route ≠ some r) :
    f.Step { f with exchange := y } := by
  obtain ⟨_, h⟩ := hs.around hp hr
  exact step_around h

end Feed

end Switchboard
