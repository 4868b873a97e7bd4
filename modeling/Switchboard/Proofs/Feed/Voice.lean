import Switchboard.Proofs.Admission.Step
import Switchboard.Proofs.Admission.Stream
import Switchboard.Proofs.Feed.Pumps

/-! What a peer has to say and what it was given when it was admitted, and all that goes on at an
exchange apart from them. -/
namespace Switchboard

/-- What the peer has to say, and its route and its token. -/
def Peer.voice (p : Peer) : Queue × Option String × Option String :=
  (p.outbox, p.route, p.authToken)

namespace Exchange

variable {σ : Type} {x y z : Exchange σ} {j k p : Nat} {q : Queue} {m : Envelope} {u : Pump}
  {papers : Option String × Option String} {own : Option String} {lives : Prop}

def voice (x : Exchange σ) (k : Nat) : Option (Queue × Option String × Option String) :=
  (x.peer? k).map Peer.voice

theorem voice_congr (h : y.endpoints[k]? = x.endpoints[k]?) : y.voice k = x.voice k := by
  rw [voice, peer?, h, voice, peer?]

theorem voice_modify {f : Endpoint σ → Endpoint σ}
    (h : ∀ e, (f e).peer?.map Peer.voice = e.peer?.map Peer.voice) :
    (x.modify j f).voice k = x.voice k := by
  have hmap := map_endpoints_modify (x := x) (k := j) (d := k) (fun e => e.peer?.map Peer.voice) h
  have hjoin (y : Exchange σ) :
      y.voice k = (y.endpoints[k]?.map fun e => e.peer?.map Peer.voice).join := by
    rw [voice, peer?]
    cases y.endpoints[k]? <;> rfl
  rw [hjoin, hjoin, hmap]

theorem voice_holding (m : Envelope) : (x.modify j (·.holding m)).voice k = x.voice k :=
  voice_modify fun e => by cases e <;> rfl

theorem voice_send (m : Envelope) : (x.send j m).1.voice k = x.voice k := by
  rw [send_fst]
  exact voice_holding m

theorem voice_handAll (hs : List Handing) : (x.handAll hs).voice k = x.voice k := by
  induction hs generalizing x with
  | nil => rfl
  | cons h hs ih => exact ih.trans (voice_holding h.envelope)

theorem voice_modifyPeer {f : Peer → Peer} (h : ∀ p, (f p).voice = p.voice) :
    (x.modifyPeer j f).voice k = x.voice k :=
  voice_modify fun e => by
    cases e with
    | peer p => exact congrArg some (h p)
    | _ => rfl

theorem peer?_of_voice (h : x.voice k = some (q, papers)) :
    ∃ p, x.peer? k = some p ∧ p.outbox = q ∧ p.route = papers.1 ∧ p.authToken = papers.2 := by
  obtain ⟨p, hp, he⟩ := Option.map_eq_some_iff.1 h
  obtain ⟨rfl, rfl⟩ := Prod.mk.inj he
  exact ⟨p, hp, rfl, rfl, rfl⟩

/-- A peer has something else to say. -/
theorem voice_modifyPeer_outbox (h : x.voice k = some (q, papers)) (f : Queue → Queue) :
    (x.modifyPeer k fun p => { p with outbox := f p.outbox }).voice k = some (f q, papers) := by
  obtain ⟨p, hp, rfl, hr, ht⟩ := peer?_of_voice h
  rw [voice, peer?_modifyPeer hp]
  simp [Peer.voice, hr, ht]

/-- A peer is given its token and its route. -/
theorem voice_modifyPeer_papers (h : x.voice k = some (q, papers)) (route token : String) :
    (x.modifyPeer k fun p => { p with authToken := some token, route := some route }).voice k =
      some (q, some route, some token) := by
  obtain ⟨p, hp, rfl, -, -⟩ := peer?_of_voice h
  rw [voice, peer?_modifyPeer hp]
  rfl

theorem voice_hear (h : x.voice k = some (q, papers)) (hh : x.hear k = .envelope m y) :
    ∃ rest, q.items = m :: rest ∧ y.voice k = some ({ q with items := rest }, papers) := by
  obtain ⟨p, hp, rfl, hr, ht⟩ := peer?_of_voice h
  obtain ⟨rest, hrest, hy⟩ := peer?_hear hp hh
  refine ⟨rest, hrest, ?_⟩
  rw [voice, hy]
  simp [Peer.voice, hr, ht]

/-- What goes on apart from a peer and its pump. -/
structure Apart (k : Nat) (own : Option String) (lives : Prop) (x y : Exchange σ) : Prop where
  voice : y.voice k = x.voice k
  router : Router.Keeps k own lives x.router y.router

namespace Apart

theorem of_router (hv : y.voice k = x.voice k) (hr : y.router = x.router) :
    Apart k own True x y := ⟨hv, hr ▸ .refl _⟩

theorem refl (x : Exchange σ) : Apart k own True x x := of_router rfl rfl

theorem trans {lives' : Prop} (h : Apart k own lives x y) (g : Apart k own lives' y z) :
    Apart k own (lives ∧ lives') x z := ⟨g.voice.trans h.voice, h.router.trans g.router⟩

theorem weaken {lives' : Prop} (h : Apart k own lives x y) (hl : lives' → lives) :
    Apart k own lives' x y := ⟨h.voice, h.router.weaken hl⟩

end Apart

theorem apart_send (m : Envelope) : Apart k own True x (x.send j m).1 :=
  .of_router (voice_send m) (by rw [send_fst]; rfl)

theorem apart_route (m : Envelope) (source : String) :
    Apart k own True x (x.route m source).1 := by
  constructor
  · rw [route_fst, voice_handAll]
    rfl
  · rw [route_fst, router_handAll]
    exact Router.keeps_noted _ _ _

/-- Operations that have nothing to do with the peer go on apart from it. -/
theorem apart_apply (op : Relay.Operation) (hb : op.bound? ≠ some k) :
    Apart k own (∀ q, op.route? = some q → own ≠ some q) x (op.apply x) := by
  constructor
  · have hv : (op.apply x).voice k = (x.handAll (op.handings x.router)).voice k := by
      rw [voice, peer?, Relay.endpoints_apply, voice, peer?]
    rw [hv, voice_handAll]
  · rw [Relay.router_apply]
    exact Router.keeps_table op x.router hb

/-- So do the pumps of others. -/
theorem apart_setPump (hu : x.router.pumps[p]? = some u) (hk : u.endpoint ≠ k)
    (held : Option Envelope) : Apart k own True x (x.setPump p held) :=
  ⟨rfl, keeps_setPump hu hk held⟩

theorem apart_fetch (hu : x.router.pumps[p]? = some u) (hk : u.endpoint ≠ k)
    (hy : x.fetch p = .held y) : Apart k own True x y := by
  obtain ⟨e, rest, he, m, hm, rfl⟩ := fetch_cases hu hy
  constructor
  · exact voice_congr (endpoints_modify_of_ne hk _)
  · exact keeps_setPump hu hk (some (e.stamp m))

theorem forward_eq (hu : x.router.pumps[p]? = some u) :
    (x.forward p).1 = match u.held with
      | some m => ((x.setPump p none).route m u.source).1
      | none => x := by
  obtain ⟨source, endpoint, cancelled, held⟩ := u
  rw [forward, hu]
  cases held <;> rfl

theorem forwardHandings_eq (hu : x.router.pumps[p]? = some u) :
    x.forwardHandings p =
      (u.held.map fun m => routeHandings x.router m u.source).getD [] := by
  obtain ⟨source, endpoint, cancelled, held⟩ := u
  rw [forwardHandings, hu]
  cases held <;> rfl

theorem apart_forward (hu : x.router.pumps[p]? = some u) (hk : u.endpoint ≠ k) :
    Apart k own True x (x.forward p).1 := by
  rw [forward_eq hu]
  cases u.held with
  | none => exact .refl x
  | some m =>
    exact ((apart_setPump hu hk none).trans (apart_route m u.source)).weaken
      fun _ => ⟨trivial, trivial⟩

end Exchange

end Switchboard
