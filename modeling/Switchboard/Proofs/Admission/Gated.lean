import Switchboard.Proofs.Admission.Account
import Switchboard.Proofs.Admission.Preservation
import Switchboard.Proofs.Admission.Wire

/-! A connection that is not admitted: what holds of it and of the exchange as long as no token of
its client is accepted, from its first step to its end. -/
namespace Switchboard

variable {σ : Type} {x y z : Exchange σ} {t u : Served} {c d : Connection} {es fs : List Event}
  {m : Envelope}

namespace Event

def isServed : Event → Bool
  | served => true
  | _ => false

/-- Nothing is granted, and nothing enters or leaves. -/
def isMute : Event → Bool
  | served | expired | called | closed => true
  | _ => false

end Event

/-- The number of steps that the service has left for a peer that it does not admit. -/
def Admission.stage : Admission → Nat
  | .greeting .awaiting => 8
  | .greeting (.received _) => 7
  | .greeting _ => 6
  | .refused => 5
  | .closing (.marked _) => 4
  | .closing (.finished _) => 2
  | .closing _ => 3
  | .unbound => 1
  | .admitted _ | .finished => 0

/-- What was handed out is at most one answer to the first envelope, for the client. -/
def Answered (peer limit : Nat) (es : List Event) : Prop :=
  Event.handings es = [] ∨ ∃ first text, Frame.first? limit (Event.received es) = some first ∧
    first.requestId.isSome ∧ Event.handings es = [⟨peer, first.failure text⟩]

/-- A connection that is not admitted, with the exchange that it came to. -/
structure Gated (x : Exchange σ) (es : List Event) (y : Exchange σ) (t : Served) : Prop where
  standing : Standing y t es .fresh
  within : Exchange.Within t.connection.peer x y
  unrouted : ∀ m source, .routed m source ∉ es
  early : 7 ≤ t.connection.admission.stage → .expired ∉ es ∧ Event.handings es = []
  answered : Answered t.connection.peer t.connection.maxFrame es
  closed : t.connection.admission.stage ≤ 4 → t.connection.guard.closed = true
  bounded : es.countP Event.isServed + t.connection.admission.stage ≤ 8
  client : ∃ p, y.peer? t.connection.peer = some p ∧ p.outbox.isOpen = true ∧
    Overheard (Event.arrivals es) t.connection p.outbox ∧
    Wired (Event.handings es) p.inbox.items t.connection.outlet.written

theorem Answered.append {peer limit : Nat} (h : Answered peer limit es)
    (hf : Event.handings fs = []) : Answered peer limit (es ++ fs) := by
  have he : Event.handings (es ++ fs) = Event.handings es := by
    simpa [Event.handings] using hf
  rcases h with h | ⟨first, text, hfirst, hid, h⟩
  · exact .inl (he.trans h)
  · exact .inr ⟨first, text, Frame.first?_received hfirst fs, hid, he.trans h⟩

/-- No step leads on from the first phase but the one that grants something. -/
theorem Standing.fresh_of_step (h : Standing x s es .fresh) (hs : s.Step x fs y t)
    (hg : ∀ g, .granted g ∉ fs) : Standing y t (es ++ fs) .fresh := by
  obtain ⟨⟨qh, hq, he⟩, -⟩ := standing_step h nofun hs
  rcases he.grant with hnone | ⟨g, n, -, rfl, -⟩
  · have hq' : qh = .fresh := by
      cases qh with
      | fresh => rfl
      | _ => cases hnone
    exact hq' ▸ hq
  · have hm : .granted g ∈ es ++ fs := hq.recorded.granted_mem_iff.2 rfl
    rcases List.mem_append.1 hm with hm | hm
    · cases h.recorded.granted_mem_iff.1 hm
    · exact absurd hm (hg g)

theorem Event.arrivals_append (es fs : List Event) :
    arrivals (es ++ fs) = arrivals es ++ arrivals fs := List.filterMap_append

/-- Of mute events, nothing is in any account. -/
theorem Event.mute (hf : ∀ e ∈ fs, e.isMute = true) :
    handings fs = [] ∧ arrivals fs = [] ∧ (∀ g, .granted g ∉ fs) ∧
      ∀ m source, .routed m source ∉ fs := by
  refine ⟨?_, ?_, fun g h => (nomatch hf _ h), fun m source h => (nomatch hf _ h)⟩
  · refine List.filterMap_eq_nil_iff.2 fun e he => ?_
    have hmute := hf e he
    cases e with
    | handed h => cases hmute
    | _ => rfl
  · refine List.filterMap_eq_nil_iff.2 fun e he => ?_
    have hmute := hf e he
    cases e with
    | arrived r => cases hmute
    | _ => rfl

theorem Guard.closed_beginClose (g : Guard) : g.beginClose.1.closed = true := by
  unfold beginClose
  split
  · assumption
  · rfl

theorem Guard.stage_beginClose (g : Guard) :
    (Admission.closing g.beginClose.2).stage < Admission.refused.stage := by
  unfold beginClose
  split <;> simp [Admission.stage]

theorem Failing.stage_le {a : Admission} (h : Failing a) : a.stage ≤ 6 := by
  cases h <;> simp [Admission.stage]

/-- One step of the service towards the end of a connection that is not admitted. -/
structure Connection.Declines (c : Connection) (es : List Event) (d : Connection) : Prop where
  events : ∀ e ∈ es, e = .called ∨ e = .closed
  peer : d.peer = c.peer
  maxFrame : d.maxFrame = c.maxFrame
  intake : d.intake = c.intake
  outlet : d.outlet = c.outlet
  stage : d.admission.stage < c.admission.stage
  closed : d.admission.stage ≤ 4 → (c.admission.stage ≤ 4 → c.guard.closed = true) →
    d.guard.closed = true

/-- It is enough that the stage falls, unless the call to close begins here. -/
theorem Connection.Declines.of_stage {g : Guard} {a : Admission}
    (he : ∀ e ∈ es, e = .called ∨ e = .closed) (hg : g.closed = c.guard.closed)
    (hs : a.stage < c.admission.stage) (hl : c.admission.stage ≤ 4 ∨ 4 < a.stage) :
    c.Declines es { c with guard := g, admission := a } := by
  constructor
  case events => exact he
  case stage => exact hs
  case closed =>
    intro hle h
    rcases hl with hl | hl
    · exact hg.trans (h hl)
    · exact absurd hle (Nat.not_le.2 hl)
  all_goals rfl

/-- What becomes of a connection that is not admitted, from one step of the service to the next. -/
theorem Connection.step_of_failing (ha : Failing c.admission) (hx : c.withdraw x = x)
    (hh : c.withdrawHandings x = []) :
    (c.step x).1 = x ∧ c.Declines (c.events x) (c.step x).2 := by
  obtain ⟨peer, grace, maxFrame, guard, admission, intake, outlet⟩ := c
  simp only at ha
  cases ha with
  | ended e =>
    refine ⟨rfl, .of_stage (by simp [events]) rfl ?_ (.inr ?_)⟩
    · simp [Admission.stage]
    · simp [Admission.stage]
  | refused =>
    refine ⟨rfl, ?_⟩
    constructor
    case events => simp [events]
    case stage => exact guard.stage_beginClose
    case closed => exact fun _ _ => guard.closed_beginClose
    all_goals rfl
  | marked =>
    refine ⟨rfl, .of_stage (by simp [events, Closing.events]) rfl ?_ (.inl ?_)⟩
    · simp [Admission.stage]
    · simp [Admission.stage]
  | cancelled =>
    refine ⟨rfl, .of_stage (by simp [events, Closing.events]) rfl ?_ (.inl ?_)⟩
    · simp [Admission.stage]
    · simp [Admission.stage]
  | closed closedIt =>
    refine ⟨rfl, .of_stage (by simp [events, Closing.events]) rfl ?_ (.inl ?_)⟩
    · simp [Admission.stage]
    · simp [Admission.stage]
  | unbound =>
    refine ⟨hx, .of_stage (by simp [events, hh]) rfl ?_ (.inl ?_)⟩
    · simp [Admission.stage]
    · simp [Admission.stage]

namespace Gated

/-- A step towards the end of the connection, in which nothing enters or leaves. -/
theorem still (h : Gated x es y t) (hs : t.Step y fs y u)
    (hp : u.connection.peer = t.connection.peer)
    (hm : u.connection.maxFrame = t.connection.maxFrame)
    (hi : u.connection.intake
      = { t.connection.intake with ended := u.connection.intake.ended })
    (ho : u.connection.outlet.written = t.connection.outlet.written)
    (hf : ∀ e ∈ fs, e.isMute = true)
    (hw : u.connection.admission = t.connection.admission ∧ .expired ∉ fs ∨
      u.connection.admission.stage ≤ 6)
    (hc : u.connection.admission.stage ≤ 4 → u.connection.guard.closed = true)
    (hb : fs.countP Event.isServed + u.connection.admission.stage
      ≤ t.connection.admission.stage) : Gated x (es ++ fs) y u := by
  obtain ⟨hhand, harr, hgr, hro⟩ := Event.mute hf
  obtain ⟨p, hpeer, hopen, hover, hwired⟩ := h.client
  have hearly : ∀ a, u.connection.admission = a → 7 ≤ a.stage →
      t.connection.admission = a ∧ .expired ∉ fs := by
    rintro a rfl ha
    rcases hw with ⟨he, hx⟩ | hle
    · exact ⟨he.symm, hx⟩
    · omega
  have hover' : Overheard (Event.arrivals (es ++ fs)) u.connection p.outbox := by
    rw [Event.arrivals_append, harr, List.append_nil]
    exact hover.frame hi hm (fun ha => (hearly _ ha (by decide)).1)
      fun m ha => (hearly _ ha (by simp [Admission.stage])).1
  have hwired' : Wired (Event.handings (es ++ fs)) p.inbox.items u.connection.outlet.written := by
    rw [Event.handings_append, hhand, List.append_nil, ho]
    exact hwired
  constructor
  case standing => exact h.standing.fresh_of_step hs hgr
  case within => exact hp ▸ h.within
  case unrouted =>
    intro m source hmem
    rcases List.mem_append.1 hmem with hmem | hmem
    · exact h.unrouted m source hmem
    · exact hro m source hmem
  case early =>
    intro h7
    obtain ⟨hne, hnone⟩ := h.early (by omega)
    refine ⟨by simp [hne, (hearly _ rfl h7).2], ?_⟩
    rw [Event.handings_append, hnone, hhand]
    rfl
  case answered =>
    rw [hp, hm]
    exact h.answered.append hhand
  case closed => exact hc
  case bounded =>
    have hbd := h.bounded
    rw [List.countP_append]
    omega
  case client => exact ⟨p, hp ▸ hpeer, hopen, hover', hwired'⟩

/-- The service sees to the end of a connection that is not admitted. -/
theorem fail (h : Gated x es y t) (ha : Failing t.connection.admission)
    (hs : t.connection.Serves y fs z d) :
    Gated x (es ++ .served :: fs) z { t with connection := d } := by
  obtain ⟨hx, hhand⟩ := h.standing.withdraw_fresh
  obtain ⟨hy, hd⟩ := Connection.step_of_failing ha hx hhand
  have hstep := Served.Step.service hs
  cases hs with
  | hear he _ =>
    rw [he] at ha
    cases ha
  | expire he _ =>
    rw [he] at ha
    cases ha
  | step _ _ =>
    rw [hy] at hstep ⊢
    refine h.still hstep hd.peer hd.maxFrame ?_ (by rw [hd.outlet]) ?_ (.inr ?_)
      (fun hle => hd.closed hle h.closed) ?_
    · simp [hd.intake]
    · rintro a (_ | ⟨_, ha⟩)
      · rfl
      · rcases hd.events a ha with rfl | rfl <;> rfl
    · exact (Nat.le_of_lt hd.stage).trans ha.stage_le
    · have hnone : (t.connection.events y).countP Event.isServed = 0 := by
        refine List.countP_eq_zero.2 fun a ha => ?_
        rcases hd.events a ha with rfl | rfl <;> simp [Event.isServed]
      have hlt := hd.stage
      rw [List.countP_cons_of_pos rfl, hnone]
      show 0 + 1 + (t.connection.step y).2.admission.stage ≤ _
      omega

/-- A call to close begins. -/
theorem close {g : Guard} {q : Closing} (h : Gated x es y t)
    (hb : t.connection.guard.beginClose = (g, q)) :
    Gated x (es ++ [.called]) y
      { connection := { t.connection with guard := g }, calls := t.calls ++ [q] } := by
  have hg : g.closed = true := by
    have := t.connection.guard.closed_beginClose
    rwa [hb] at this
  exact h.still (.close hb) rfl rfl rfl rfl (by simp [Event.isMute])
    (.inl ⟨rfl, by simp⟩) (fun _ => hg)
    (by simp [Event.isServed])

/-- A call to close makes a step. -/
theorem call {k : Nat} {q r : Closing} (h : Gated x es y t) (hk : t.calls[k]? = some q)
    (ho : q.isOpen = true) (hs : t.connection.closeStep y q = (z, d, r)) :
    Gated x (es ++ q.events y t.connection) z { connection := d, calls := t.calls.set k r } := by
  have hstep := Served.Step.call hk ho hs
  have ha := h.standing.allowed q (List.mem_of_getElem? hk)
  cases q with
  | marked route =>
    cases hs
    exact h.still hstep rfl rfl rfl rfl (by simp [Closing.events])
      (.inl ⟨rfl, by simp [Closing.events]⟩) h.closed (by simp [Closing.events])
  | cancelled route =>
    cases route with
    | none =>
      cases hs
      exact h.still hstep rfl rfl rfl rfl (by simp [Closing.events, Event.isMute])
        (.inl ⟨rfl, by simp [Closing.events]⟩) h.closed (by simp [Closing.events, Event.isServed])
    | some route =>
      obtain ⟨g, hg, -⟩ := ha
      cases hg
  | unregistered route =>
    obtain ⟨g, hg, -⟩ := ha
    cases hg
  | disposed token =>
    obtain ⟨g, hg, -⟩ := ha
    cases hg
  | finished b => cases ho

/-- Either side of the stream makes a step, or something arrives. -/
theorem beside (h : Gated x es y t) (hs : t.Step y fs z { t with connection := d })
    (hw : Exchange.Within t.connection.peer y z) (hp : d.peer = t.connection.peer)
    (hm : d.maxFrame = t.connection.maxFrame) (hg : d.guard = t.connection.guard)
    (ha : d.admission = t.connection.admission) (hf : ∀ e ∈ fs, ∃ r, e = .arrived r)
    (hc : ∃ p, z.peer? t.connection.peer = some p ∧ p.outbox.isOpen = true ∧
      Overheard (Event.arrivals (es ++ fs)) d p.outbox ∧
      Wired (Event.handings es) p.inbox.items d.outlet.written) :
    Gated x (es ++ fs) z { t with connection := d } := by
  have hhand : Event.handings fs = [] := by
    refine List.filterMap_eq_nil_iff.2 fun e he => ?_
    obtain ⟨r, rfl⟩ := hf e he
    rfl
  have hcount : fs.countP Event.isServed = 0 := by
    refine List.countP_eq_zero.2 fun e he => ?_
    obtain ⟨r, rfl⟩ := hf e he
    simp [Event.isServed]
  obtain ⟨p, hpeer, hopen, hover, hwired⟩ := hc
  constructor
  case standing =>
    apply h.standing.fresh_of_step hs
    intro g hmem
    obtain ⟨r, hr⟩ := hf _ hmem
    cases hr
  case within => exact hp ▸ h.within.trans hw
  case unrouted =>
    intro m source hmem
    rcases List.mem_append.1 hmem with hmem | hmem
    · exact h.unrouted m source hmem
    · obtain ⟨r, hr⟩ := hf _ hmem
      cases hr
  case early =>
    intro h7
    obtain ⟨hne, hnone⟩ := h.early (ha ▸ h7)
    constructor
    · intro hmem
      rcases List.mem_append.1 hmem with hmem | hmem
      · exact hne hmem
      · obtain ⟨r, hr⟩ := hf _ hmem
        cases hr
    · rw [Event.handings_append, hnone, hhand]
      rfl
  case answered =>
    show Answered d.peer d.maxFrame (es ++ fs)
    rw [hp, hm]
    exact h.answered.append hhand
  case closed =>
    intro h4
    show d.guard.closed = true
    rw [hg]
    exact h.closed (ha ▸ h4)
  case bounded =>
    show (es ++ fs).countP Event.isServed + d.admission.stage ≤ 8
    rw [List.countP_append, hcount, ha]
    exact h.bounded
  case client =>
    refine ⟨p, ?_, hopen, hover, ?_⟩
    · show z.peer? d.peer = some p
      rw [hp, hpeer]
    · rw [Event.handings_append, hhand, List.append_nil]
      exact hwired

/-- The time for authenticating is over, or the client is gone before it said anything. -/
theorem give_up {e : Error} (h : Gated x es y t) (ha : t.connection.admission = .greeting .awaiting)
    (hs : t.Step y fs y { t with connection.admission := .greeting (.ended (.error e)) })
    (hf : ∀ e ∈ fs, e.isMute = true) (hn : fs.countP Event.isServed ≤ 1) :
    Gated x (es ++ fs) y { t with connection.admission := .greeting (.ended (.error e)) } :=
  h.still hs rfl rfl rfl rfl hf (.inr (by simp [Admission.stage]))
    (fun hle => absurd hle (by simp [Admission.stage]))
    (by simp only [ha, Admission.stage]; omega)

/-- The first envelope is heard. -/
theorem hear (h : Gated x es y t) (ha : t.connection.admission = .greeting .awaiting)
    (hh : y.hear t.connection.peer = .envelope m z)
    (hs : t.Step y [.served] z { t with connection.admission := .greeting (.received m) }) :
    Gated x (es ++ [.served]) z { t with connection.admission := .greeting (.received m) } := by
  obtain ⟨p, hpeer, hopen, hover, hwired⟩ := h.client
  obtain ⟨hne, hnone⟩ := h.early (by simp [ha, Admission.stage])
  obtain ⟨rest, hrest, hz⟩ := Exchange.peer?_hear hpeer hh
  have hhand : Event.handings (es ++ [.served]) = [] := by
    rw [Event.handings_append, hnone]
    rfl
  constructor
  case standing => exact h.standing.fresh_of_step hs (by simp)
  case within => exact h.within.trans (Exchange.within_hear hh)
  case unrouted => simpa using h.unrouted
  case early => exact fun _ => ⟨by simpa using hne, hhand⟩
  case answered => exact .inl hhand
  case closed => exact fun hle => absurd hle (by simp [Admission.stage])
  case bounded =>
    have hb := h.bounded
    rw [ha] at hb
    rw [List.countP_append]
    exact hb
  case client =>
    refine ⟨_, hz, hopen, ?_, ?_⟩
    · rw [Event.arrivals_append, show Event.arrivals [.served] = [] from rfl, List.append_nil]
      exact hover.hear ha hrest _
    · rw [hhand]
      exact hnone ▸ hwired

/-- The first envelope is refused. -/
theorem reject {text : String} {e : Error} (h : Gated x es y t)
    (ha : t.connection.admission = .greeting (.received m))
    (hs : t.Step y (.served :: if m.requestId.isSome
        then [.handed ⟨t.connection.peer, m.failure text⟩] else [])
      (Handshake.reject y t.connection.peer m text)
      { t with connection.admission := .greeting (.ended (.error e)) }) :
    Gated x (es ++ .served :: if m.requestId.isSome
        then [.handed ⟨t.connection.peer, m.failure text⟩] else [])
      (Handshake.reject y t.connection.peer m text)
      { t with connection.admission := .greeting (.ended (.error e)) } := by
  by_cases hid : m.requestId.isSome = true
  · simp only [Handshake.reject, if_pos hid] at hs ⊢
    obtain ⟨p, hpeer, hopen, hover, hwired⟩ := h.client
    obtain ⟨-, hnone⟩ := h.early (by simp [ha, Admission.stage])
    have hhand : Event.handings (es ++ [.served, .handed ⟨t.connection.peer, m.failure text⟩])
        = [⟨t.connection.peer, m.failure text⟩] := by
      rw [Event.handings_append, hnone]
      rfl
    have hfirst := Frame.first?_received (hover.received ha)
    constructor
    case standing => exact h.standing.fresh_of_step hs (by simp)
    case within => exact h.within.trans Exchange.within_send
    case unrouted => simpa using h.unrouted
    case early => exact fun h7 => absurd h7 (by simp [Admission.stage])
    case answered => exact .inr ⟨m, text, hfirst _, hid, hhand⟩
    case closed => exact fun hle => absurd hle (by simp [Admission.stage])
    case bounded =>
      have hb := h.bounded
      rw [ha] at hb
      rw [List.countP_append]
      exact hb
    case client =>
      refine ⟨_, Exchange.peer?_send hpeer _, hopen, ?_, ?_⟩
      · have harr : Event.arrivals [.served, .handed ⟨t.connection.peer, m.failure text⟩] = [] :=
          rfl
        rw [Event.arrivals_append, harr, List.append_nil]
        exact hover.frame rfl rfl (by simp) (by simp)
      · rw [hhand]
        exact (hnone ▸ hwired).push _
  · simp only [Handshake.reject, if_neg hid] at hs ⊢
    exact h.still hs rfl rfl rfl rfl (by simp [Event.isMute]) (.inr (by simp [Admission.stage]))
      (fun hle => absurd hle (by simp [Admission.stage]))
      (by simp [ha, Admission.stage, Event.isServed])

end Gated

end Switchboard
