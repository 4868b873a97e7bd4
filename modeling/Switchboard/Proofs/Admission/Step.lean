import Switchboard.Proofs.Admission.Phase
import Switchboard.Proofs.Id

/-! What each operation of an admission or a teardown does to an exchange. -/
namespace Switchboard

namespace Exchange

variable {σ : Type} {x y : Exchange σ} {k j : Nat} {m : Envelope} {g : Grant} {e : Error}
  {token route source : String}

theorem papers_handAll (hs : List Handing) : (x.handAll hs).papers k = x.papers k :=
  (calm_handAll hs).papers k

theorem peer?_of_papers {p : Option String × Option String} (h : x.papers k = some p) :
    ∃ q, x.peer? k = some q ∧ q.route = p.1 ∧ q.authToken = p.2 := by
  unfold papers at h
  obtain ⟨q, hq, rfl⟩ := Option.map_eq_some_iff.1 h
  exact ⟨q, hq, rfl, rfl⟩

theorem papers_modifyPeer_of_ne {f : Peer → Peer} (h : j ≠ k) :
    (x.modifyPeer k f).papers j = x.papers j := by
  simp [papers, peer?, modifyPeer, modify, Ne.symm h]

/-- A peer is given its token and its route. -/
theorem papers_modifyPeer_self {p : Option String × Option String} (h : x.papers k = some p)
    (r t : String) :
    (x.modifyPeer k fun q => { q with authToken := some t, route := some r }).papers k
      = some (some r, some t) := by
  obtain ⟨q, hq, -⟩ := peer?_of_papers h
  simp [papers, peer?, modifyPeer, modify, endpoint_of_peer? hq, Endpoint.peer?]

theorem authenticate_ok (h : x.authenticate token = (y, .ok g)) :
    y = { x with router := x.router.accept g.token g.identity, minted := x.minted + 2 } ∧
      g.route = Identity.processRoute (Id.ofNat x.minted) ∧
      g.token = Id.ofNat (x.minted + 1) := by
  unfold authenticate at h
  split at h
  · cases h
  · split at h
    · cases h
    · cases h
      exact ⟨rfl, rfl, rfl⟩

theorem authenticate_error (h : x.authenticate token = (y, .error e)) : y = x := by
  unfold authenticate at h
  split at h
  · cases h; rfl
  · split at h <;> cases h
    rfl

end Exchange

theorem Identity.processRoute_injective {a b : String}
    (h : Identity.processRoute a = Identity.processRoute b) : a = b := by
  have hl := congrArg String.toList h
  simp only [Identity.processRoute, String.toList_append] at hl
  exact String.toList_inj.1 (List.append_cancel_left hl)

theorem Identity.processRoute_ne_uplinkRoute (a : String) :
    Identity.processRoute a ≠ uplinkRoute := by
  intro h
  have hl := congrArg String.toList h
  simp [Identity.processRoute, uplinkRoute] at hl

namespace Grant.Numbered

variable {g h : Grant} {m n : Nat}

theorem route_ne_uplinkRoute (hg : g.Numbered n) : g.route ≠ uplinkRoute := by
  rw [hg.route]
  exact Identity.processRoute_ne_uplinkRoute _

/-- Grants of different numbers have nothing in common. -/
theorem ne (hg : g.Numbered m) (hh : h.Numbered n) (hn : m ≠ n) :
    g.route ≠ h.route ∧ g.token ≠ h.token := by
  rw [hg.route, hg.token, hh.route, hh.token]
  refine ⟨fun he => hn ?_, fun he => hn ?_⟩
  · exact Id.ofNat_injective (Identity.processRoute_injective he)
  · exact Nat.succ_injective (Id.ofNat_injective he)

end Grant.Numbered

namespace Router

variable {r : Router} {route q : String} {endpoint : Nat} {isLocal : Bool}

theorem get?_register (r : Router) (route q : String) (endpoint : Nat) (isLocal : Bool) :
    (r.register route endpoint isLocal).routes.get? q =
      if q = route then
        some { endpoint, isLocal, pump := (r.cancelPumpOf (r.routes.get? route)).pumps.length }
      else r.routes.get? q := by
  unfold register cancelPumpOf
  cases r.routes.get? route <;> simp [cancelPump]

theorem get?_unregister (r : Router) (route q : String) :
    (r.unregister route).routes.get? q = if q = route then none else r.routes.get? q := by
  unfold unregister
  cases hb : r.routes.get? route with
  | none => by_cases hq : q = route <;> simp [hq, hb]
  | some b => simp [cancelPump]

theorem rest_register (r : Router) (route : String) (endpoint : Nat) (isLocal : Bool) :
    (r.register route endpoint isLocal).accepted = r.accepted ∧
      (r.register route endpoint isLocal).uplink = r.uplink ∧
      (r.register route endpoint isLocal).closed = r.closed := by
  unfold register cancelPumpOf
  cases r.routes.get? route <;> exact ⟨rfl, rfl, rfl⟩

theorem rest_unregister (r : Router) (route : String) :
    (r.unregister route).accepted = r.accepted ∧ (r.unregister route).uplink = r.uplink ∧
      (r.unregister route).closed = r.closed := by
  unfold unregister
  cases r.routes.get? route <;> exact ⟨rfl, rfl, rfl⟩

end Router

namespace Handshake

variable {σ : Type} {x y : Exchange σ} {peer : Nat} {first : Envelope}

/-- A first envelope is either granted admission or refused. -/
theorem judge_cases (x : Exchange σ) (peer : Nat) (first : Envelope) :
    (∃ token y g, x.authenticate token = (y, .ok g) ∧ objection x first = none ∧
      judge x peer first = (y, .granted first g)) ∨
    ∃ text e, objection x first = some text ∧
      judge x peer first = refuse x peer first text e := by
  unfold judge objection
  cases hc : first.command? with
  | error e => exact .inr ⟨_, _, rfl, rfl⟩
  | ok c =>
    cases c with
    | none => exact .inr ⟨_, _, rfl, rfl⟩
    | some c =>
      cases c with
      | authenticate token =>
        cases ha : x.authenticate token with
        | mk y r =>
          cases r with
          | ok g => exact .inl ⟨token, y, g, ha, by simp [ha], by simp [ha]⟩
          | error e =>
            obtain rfl := Exchange.authenticate_error ha
            exact .inr ⟨e.text, e, by simp [ha], by simp [ha]⟩
      | _ => exact .inr ⟨_, _, rfl, rfl⟩

theorem within_reject (x : Exchange σ) (peer : Nat) (first : Envelope) (text : String) :
    Exchange.Within peer x (reject x peer first text) := by
  unfold reject
  split
  · exact Exchange.within_send
  · exact .refl x

theorem within_hear? {h : Handshake} (hh : hear? x peer = some (y, h)) :
    Exchange.Within peer x y := by
  unfold hear? at hh
  split at hh
  · cases hh
    exact Exchange.within_hear ‹_›
  · cases hh
    exact .refl x
  · cases hh

theorem within_step_announced (g : Grant) :
    Exchange.Within peer x ((announced first g).step x peer).1 := by
  have hw := Exchange.within_send (x := x) (k := peer) (m := welcome first g)
  simp only [step]
  split <;> rename_i hs <;> rwa [hs] at hw

/-- Whatever a waiting handshake learns, nothing is granted yet. -/
theorem hear?_cases {h : Handshake} (hh : hear? x peer = some (y, h)) :
    (∃ m, h = .received m) ∨ h = abandoned := by
  unfold hear? at hh
  split at hh
  · cases hh
    exact .inl ⟨_, rfl⟩
  · cases hh
    exact .inr rfl
  · cases hh

end Handshake

namespace Connection

variable {σ : Type} {x y : Exchange σ} {c d : Connection}

theorem step_greeting {hs : Handshake}
    (ha : c.admission = .greeting hs) (hn : ∀ r, hs ≠ .ended r) :
    c.step x = ((hs.step x c.peer).1, { c with admission := .greeting (hs.step x c.peer).2 }) := by
  cases hs with
  | ended r => exact absurd rfl (hn r)
  | _ => simp [step, ha]

/-- Why nothing more is read: both sides are told to stop, a length is too large, or the stream
has failed or is at its end. -/
inductive Halts (c : Connection) : Prop
  | cancelled (h : c.guard.cancelled = true)
  | refused {e : WireError} (h : Frame.body? c.maxFrame c.intake.buffer = .error e)
  | failed {text : String} {reads : List Read} (h : c.intake.reads = .failure text :: reads)
  | hungUp (h : c.intake.ended = true)

/-- The steps of reading. -/
inductive Reads (x : Exchange σ) (c : Connection) : Exchange σ → Connection → Prop
  | ended {intake : Intake} (hr : intake.result.isSome) (he : intake.ended = c.intake.ended)
      (hh : c.Halts) :
      Reads x c (x.modifyPeer c.peer fun p => { p with outbox := p.outbox.finish })
        { c with intake }
  | taken {b : Bytes} {reads : List Read} (hb : c.intake.reads = .data b :: reads) :
      Reads x c x
        { c with intake := { c.intake with buffer := c.intake.buffer ++ b, reads } }
  | decoded {body buffer : Bytes} {m : Envelope}
      (hb : Frame.body? c.maxFrame c.intake.buffer = .ok (some (body, buffer)))
      (hm : Envelope.ofMessagePack body = .ok m) :
      Reads x c
        (x.modifyPeer c.peer fun p => { p with outbox := (p.outbox.push? m).getD p.outbox })
        { c with intake.buffer := buffer }
  | skipped {body buffer : Bytes} {e : WireError}
      (hb : Frame.body? c.maxFrame c.intake.buffer = .ok (some (body, buffer)))
      (he : Envelope.ofMessagePack body = .error e) :
      Reads x c x { c with intake.buffer := buffer }

theorem reads_of_readMore? (h : c.readMore? x = some (y, d)) : Reads x c y d := by
  unfold readMore? at h
  split at h
  · cases h
    exact .taken ‹_›
  · cases h
    exact .ended rfl rfl (.failed ‹_›)
  · split at h <;> cases h
    exact .ended rfl rfl (.hungUp ‹_›)

theorem reads_of_read? (h : c.read? x = some (y, d)) :
    c.intake.result = none ∧ Reads x c y d := by
  unfold read? at h
  split at h
  · cases h
  · refine ⟨Option.not_isSome_iff_eq_none.1 ‹_›, ?_⟩
    split at h
    · cases h
      exact .ended rfl rfl (.cancelled ‹_›)
    · split at h
      · cases h
        exact .ended rfl rfl (.refused ‹_›)
      · exact reads_of_readMore? h
      · simp only at h
        split at h <;> cases h
        · exact .decoded ‹_› ‹_›
        · exact .skipped ‹_› ‹_›

/-- Neither side of the stream touches what admission and teardown go by. -/
structure Beside (x y : Exchange σ) (c d : Connection) : Prop where
  within : Exchange.Within c.peer x y
  peer : d.peer = c.peer
  maxFrame : d.maxFrame = c.maxFrame
  guard : d.guard = c.guard
  admission : d.admission = c.admission

theorem Reads.beside (h : Reads x c y d) : Beside x y c d := by
  cases h with
  | taken _ => exact ⟨.refl x, rfl, rfl, rfl, rfl⟩
  | skipped _ _ => exact ⟨.refl x, rfl, rfl, rfl, rfl⟩
  | _ => exact ⟨Exchange.within_modifyPeer fun _ => ⟨rfl, rfl⟩, rfl, rfl, rfl, rfl⟩

theorem Reads.outlet (h : Reads x c y d) : d.outlet = c.outlet := by
  cases h <;> rfl

theorem beside_write? (h : c.write? x = some (y, d)) : Beside x y c d := by
  unfold write? at h
  split at h
  · cases h
  · split at h
    · cases h
    · split at h
      · cases h
        exact ⟨Exchange.within_modifyPeer fun _ => ⟨rfl, rfl⟩, rfl, rfl, rfl, rfl⟩
      · split at h
        · cases h
        · cases h
          exact ⟨Exchange.within_modifyPeer fun _ => ⟨rfl, rfl⟩, rfl, rfl, rfl, rfl⟩
        · simp only at h
          split at h
          · cases h
            exact ⟨Exchange.within_modifyPeer fun _ => ⟨rfl, rfl⟩, rfl, rfl, rfl, rfl⟩
          · split at h <;> cases h
            · exact ⟨Exchange.within_modifyPeer fun _ => ⟨rfl, rfl⟩, rfl, rfl, rfl, rfl⟩
            · refine ⟨Exchange.Within.trans ?_ (Exchange.within_modifyPeer ?_), rfl, rfl, rfl, rfl⟩
              · exact Exchange.within_modifyPeer fun _ => ⟨rfl, rfl⟩
              · exact fun _ => ⟨rfl, rfl⟩

/-- The service never takes another peer, nor another limit, and what it has heard stays heard. -/
theorem step_fixed (x : Exchange σ) (c : Connection) :
    (c.step x).2.peer = c.peer ∧ (c.step x).2.maxFrame = c.maxFrame ∧
      (c.admission ≠ .greeting .awaiting → (c.step x).2.admission ≠ .greeting .awaiting) := by
  cases hc : c.admission with
  | greeting h =>
    cases h with
    | awaiting =>
      rw [step_greeting hc nofun]
      exact ⟨rfl, rfl, fun h => absurd rfl h⟩
    | ended r =>
      rw [step, hc]
      cases r <;> exact ⟨rfl, rfl, nofun⟩
    | received first =>
      rw [step_greeting hc nofun]
      refine ⟨rfl, rfl, fun _ => ?_⟩
      rcases Handshake.judge_cases x c.peer first with ⟨_, _, _, _, _, hj⟩ | ⟨_, _, _, hj⟩
      · simp [Handshake.step, hj]
      · simp [Handshake.step, hj, Handshake.refuse]
    | announced first g =>
      rw [step_greeting hc nofun]
      refine ⟨rfl, rfl, fun _ => ?_⟩
      simp only [Handshake.step]
      split <;> nofun
    | _ =>
      rw [step_greeting hc nofun]
      exact ⟨rfl, rfl, nofun⟩
  | admitted route =>
    rw [step, hc]
    simp only [bindRoute]
    split <;> exact ⟨rfl, rfl, nofun⟩
  | closing q =>
    rw [step, hc]
    cases q with
    | cancelled r => cases r <;> exact ⟨rfl, rfl, nofun⟩
    | disposed token => cases token <;> exact ⟨rfl, rfl, nofun⟩
    | _ => exact ⟨rfl, rfl, nofun⟩
  | finished =>
    have hs : c.step x = (x, c) := by rw [step, hc]
    rw [hs]
    exact ⟨rfl, rfl, fun _ => by simp [hc]⟩
  | _ =>
    rw [step, hc]
    exact ⟨rfl, rfl, nofun⟩

theorem closeStep_fixed (x : Exchange σ) (c : Connection) (q : Closing) :
    (c.closeStep x q).2.1.peer = c.peer ∧ (c.closeStep x q).2.1.maxFrame = c.maxFrame ∧
      (c.closeStep x q).2.1.admission = c.admission := by
  cases q with
  | cancelled r => cases r <;> exact ⟨rfl, rfl, rfl⟩
  | disposed token => cases token <;> exact ⟨rfl, rfl, rfl⟩
  | _ => exact ⟨rfl, rfl, rfl⟩

end Connection

theorem Served.Step.fixed {σ : Type} {y z : Exchange σ} {t u : Served} {fs : List Event}
    (hs : t.Step y fs z u) :
    u.connection.peer = t.connection.peer ∧ u.connection.maxFrame = t.connection.maxFrame := by
  cases hs with
  | service hs =>
    cases hs with
    | step _ _ =>
      have hf := t.connection.step_fixed y
      exact ⟨hf.1, hf.2.1⟩
    | _ => exact ⟨rfl, rfl⟩
  | read hr =>
    have hb := (Connection.reads_of_read? hr).2.beside
    exact ⟨hb.peer, hb.maxFrame⟩
  | write hw =>
    have hb := Connection.beside_write? hw
    exact ⟨hb.peer, hb.maxFrame⟩
  | @call _ q _ _ _ _ _ hc =>
    have hf := t.connection.closeStep_fixed y q
    rw [hc] at hf
    exact ⟨hf.1, hf.2.1⟩
  | _ => exact ⟨rfl, rfl⟩

end Switchboard
