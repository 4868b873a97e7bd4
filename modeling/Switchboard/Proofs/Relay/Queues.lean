import Switchboard.Proofs.Relay.Run

/-! What a step does to the queues of the endpoints: what gets into an inbox is what the log says
was handed there, and nothing gets out but what is taken out. -/
namespace Switchboard

namespace Endpoint

variable {σ : Type} (e : Endpoint σ) (q : Queue) (m : Envelope)

@[simp] theorem incoming_withIncoming : (e.withIncoming q).incoming = q := by cases e <;> rfl

@[simp] theorem outgoing_withIncoming : (e.withIncoming q).outgoing = e.outgoing := by
  cases e <;> rfl

@[simp] theorem incoming_withOutgoing : (e.withOutgoing q).incoming = e.incoming := by
  cases e <;> rfl

@[simp] theorem outgoing_withOutgoing : (e.withOutgoing q).outgoing = q := by cases e <;> rfl

@[simp] theorem stamp_withOutgoing : (e.withOutgoing q).stamp m = e.stamp m := by
  cases e <;> rfl

theorem incoming_holding :
    (e.holding m).incoming =
      if e.incoming.isOpen then { e.incoming with items := e.incoming.items ++ [m] }
      else e.incoming := by
  cases h : e.incoming.isOpen <;> simp [holding, Queue.push?, h]

@[simp] theorem outgoing_holding : (e.holding m).outgoing = e.outgoing := by simp [holding]

end Endpoint

namespace Exchange

variable {σ : Type} {x y : Exchange σ} {d k : Nat} {e : Endpoint σ} {f : Endpoint σ → Endpoint σ}
  {m : Envelope}

theorem endpoints_modify_self (he : x.endpoints[k]? = some e) (f : Endpoint σ → Endpoint σ) :
    (x.modify k f).endpoints[k]? = some (f e) := by
  simp [modify, he]

theorem endpoints_modify_of_ne (h : k ≠ d) (f : Endpoint σ → Endpoint σ) :
    (x.modify k f).endpoints[d]? = x.endpoints[d]? := by
  simp [modify, h]

/-- What a change to an endpoint leaves alone is not changed anywhere. -/
theorem map_endpoints_modify {α : Type} (g : Endpoint σ → α) (h : ∀ e, g (f e) = g e) :
    (x.modify k f).endpoints[d]?.map g = x.endpoints[d]?.map g := by
  by_cases hk : k = d
  · subst d
    cases he : x.endpoints[k]? with
    | none => simp [modify, he]
    | some e => simp [endpoints_modify_self he, h]
  · rw [endpoints_modify_of_ne hk]

theorem listens_modify (h : ∀ e, (f e).incoming.isOpen = e.incoming.isOpen) :
    (x.modify k f).listens d = x.listens d := by
  rw [listens, listens, map_endpoints_modify (·.incoming.isOpen) h]

theorem outgoing_modify (h : ∀ e, (f e).outgoing.items = e.outgoing.items) :
    (x.modify k f).outgoing d = x.outgoing d := by
  rw [outgoing, outgoing, map_endpoints_modify (·.outgoing.items) h]

theorem incoming_modify (h : ∀ e, (f e).incoming.items = e.incoming.items) :
    (x.modify k f).incoming d = x.incoming d := by
  rw [incoming, incoming, map_endpoints_modify (·.incoming.items) h]

theorem incoming_withOutgoing (x : Exchange σ) (k d : Nat) (q : Queue) :
    (x.modify k (·.withOutgoing q)).incoming d = x.incoming d :=
  incoming_modify fun e => by rw [e.incoming_withOutgoing]

theorem listens_holding (x : Exchange σ) (k d : Nat) (m : Envelope) :
    (x.modify k (·.holding m)).listens d = x.listens d := by
  apply listens_modify
  intro e
  rw [Endpoint.incoming_holding]
  split <;> rfl

theorem incoming_holding (x : Exchange σ) (k d : Nat) (m : Envelope) :
    (x.modify k (·.holding m)).incoming d =
      x.incoming d ++ if k = d ∧ x.listens k then [m] else [] := by
  by_cases hk : k = d
  · subst d
    cases he : x.endpoints[k]? with
    | none => simp [incoming, listens, modify, he]
    | some e =>
      cases ho : e.incoming.isOpen <;>
        simp [incoming, listens, endpoints_modify_self he, he, Endpoint.incoming_holding, ho]
  · simp [incoming, endpoints_modify_of_ne hk, hk]

theorem taken_congr (h : ∀ k, y.listens k = x.listens k) (hs : List Handing) :
    y.taken hs = x.taken hs := by
  simp [taken, h]

theorem taken_cons (h : Handing) (hs : List Handing) :
    x.taken (h :: hs) = (if x.listens h.endpoint then [h] else []) ++ x.taken hs := by
  cases hl : x.listens h.endpoint <;> simp [taken, hl]

theorem listens_handAll (hs : List Handing) (x : Exchange σ) (d : Nat) :
    (x.handAll hs).listens d = x.listens d := by
  induction hs generalizing x with
  | nil => rfl
  | cons h hs ih => exact (ih _).trans (listens_holding x h.endpoint d h.envelope)

theorem outgoing_handAll (hs : List Handing) (x : Exchange σ) (d : Nat) :
    (x.handAll hs).outgoing d = x.outgoing d := by
  induction hs generalizing x with
  | nil => rfl
  | cons h hs ih => exact (ih _).trans (outgoing_modify fun e => by simp)

/-- An inbox gets what is handed to it, if it is open. -/
theorem incoming_handAll (hs : List Handing) (x : Exchange σ) (d : Nat) :
    (x.handAll hs).incoming d =
      x.incoming d ++ ((x.taken hs).filter (·.endpoint = d)).map Handing.envelope := by
  induction hs generalizing x with
  | nil => simp [taken]
  | cons h hs ih =>
    have hrest := taken_congr (fun j => listens_holding x h.endpoint j h.envelope) hs
    have hall : x.handAll (h :: hs)
        = (x.modify h.endpoint (·.holding h.envelope)).handAll hs := rfl
    rw [hall, ih, incoming_holding, hrest, taken_cons, List.append_assoc]
    congr 1
    cases hl : x.listens h.endpoint
    · simp
    · by_cases hd : h.endpoint = d <;> simp [hd]

theorem endpoints_forward {p : Nat} {u : Pump} (hu : x.router.pumps[p]? = some u)
    (hm : u.held = some m) :
    (x.forward p).1.endpoints = (x.handAll (routeHandings x.router m u.source)).endpoints := by
  obtain ⟨source, endpoint, cancelled, held⟩ := u
  subst hm
  simp only [forward, hu]
  rw [endpoints_route]
  exact endpoints_handAll _ rfl

/-- What a pump finds when it takes an envelope, and what it makes of it. -/
theorem fetch_cases {p : Nat} {u : Pump} (hu : x.router.pumps[p]? = some u)
    (hy : x.fetch p = .held y) :
    ∃ e rest, x.endpoints[u.endpoint]? = some e ∧ ∃ m, e.outgoing.items = m :: rest ∧
      y = (x.modify u.endpoint (·.withOutgoing { e.outgoing with items := rest })).setPump p
        (some (e.stamp m)) := by
  simp only [fetch, hu] at hy
  split at hy
  · cases hy
  · cases he : x.endpoints[u.endpoint]? with
    | none => simp [hear, he] at hy
    | some e =>
      cases hq : e.outgoing.items with
      | nil =>
        cases hended : e.outgoing.ended <;> simp [hear, he, Queue.take, hq, hended] at hy
      | cons m rest =>
        simp only [hear, he, Queue.take, hq] at hy
        cases hy
        refine ⟨e, rest, rfl, m, hq, ?_⟩
        simp [stamp, endpoints_modify_self he]

theorem incoming_congr (h : y.endpoints = x.endpoints) (d : Nat) : y.incoming d = x.incoming d := by
  simp [incoming, h]

theorem incoming_setPump (p : Nat) (h : Option Envelope) (d : Nat) :
    (x.setPump p h).incoming d = x.incoming d := rfl

theorem outgoing_setPump (p : Nat) (h : Option Envelope) (d : Nat) :
    (x.setPump p h).outgoing d = x.outgoing d := rfl

theorem outgoing_congr (h : y.endpoints = x.endpoints) (d : Nat) : y.outgoing d = x.outgoing d := by
  simp [outgoing, h]

theorem listens_congr (h : y.endpoints = x.endpoints) (d : Nat) : y.listens d = x.listens d := by
  simp [listens, h]

end Exchange

namespace Relay

open Exchange

variable {σ : Type} {x y z : Exchange σ} {t : Entry} {log more : List Entry} {s d k : Nat}

theorem router_apply (op : Operation) (x : Exchange σ) :
    (op.apply x).router = op.table x.router := by
  cases op with
  | unregister route =>
    rw [Operation.apply, unregister_eq, router_handAll]
    rfl
  | withdraw route token =>
    cases token with
    | some token =>
      rw [Operation.apply, withdraw_eq, router_handAll]
      rfl
    | none =>
      have h := sendUplink_mapRouter_fst (x := x) (m := unannouncement route) (·.retract route) rfl
      exact (congrArg router h).trans (router_handAll _)
  | register => rfl
  | setUplink => rfl
  | clearUplink => rfl
  | setDefault => rfl
  | accept => rfl
  | shutdown => rfl

/-- An operation does nothing to endpoints but tell the uplink of routes that are gone. -/
theorem endpoints_apply (op : Operation) (x : Exchange σ) :
    (op.apply x).endpoints = (x.handAll (op.handings x.router)).endpoints := by
  cases op with
  | unregister route => exact endpoints_unregister route
  | withdraw route token => exact endpoints_withdraw route token
  | register => rfl
  | setUplink => rfl
  | clearUplink => rfl
  | setDefault => rfl
  | accept => rfl
  | shutdown => rfl

theorem handedTo_append (d : Nat) (log more : List Entry) :
    handedTo d (log ++ more) = handedTo d log ++ handedTo d more := List.flatMap_append

theorem consumedBy_append (d : Nat) (log more : List Entry) :
    consumedBy d (log ++ more) = consumedBy d log ++ consumedBy d more := List.flatMap_append

/-- In every step, an inbox loses what is consumed at its front and gets what is handed to it at
its end. -/
theorem Step.incoming (h : Step x t y) (d : Nat) :
    x.incoming d ++ handedTo d [t] = consumedBy d [t] ++ y.incoming d := by
  have handed {hs : List Handing} {y : Exchange σ}
      (hy : y.endpoints = (x.handAll hs).endpoints) :
      y.incoming d = x.incoming d ++ ((x.taken hs).filter (·.endpoint = d)).map Handing.envelope :=
    (incoming_congr hy d).trans (incoming_handAll hs x d)
  cases h with
  | produce he hq => simp [handedTo, consumedBy, incoming_withOutgoing]
  | @consume k e ms rest he hq =>
    by_cases hk : k = d
    · subst d
      simp [handedTo, consumedBy, Exchange.incoming, endpoints_modify_self he, he, hq]
    · simp [handedTo, consumedBy, Exchange.incoming, endpoints_modify_of_ne hk, hk]
  | @shut k e he =>
    by_cases hk : k = d
    · subst d
      simp [handedTo, consumedBy, Exchange.incoming, endpoints_modify_self he, he, Queue.close]
    · simp [handedTo, consumedBy, Exchange.incoming, endpoints_modify_of_ne hk, hk]
  | change k hf =>
    have hkept : (x.modify k _).incoming d = x.incoming d :=
      incoming_modify fun e => by rw [(hf e).1]
    simp [handedTo, consumedBy, hkept]
  | fetch hu hidle hy =>
    obtain ⟨e, rest, he, m, hm, rfl⟩ := fetch_cases hu hy
    simp [handedTo, consumedBy, incoming_setPump, incoming_withOutgoing]
  | forward hu hm => simp [handedTo, consumedBy, handed (endpoints_forward hu hm)]
  | inject source m => simp [handedTo, consumedBy, handed (endpoints_route m source)]
  | operate op hnew => simp [handedTo, consumedBy, handed (endpoints_apply op x)]

/-- In the course of a run everything that is handed to an endpoint goes through its inbox, in
order, and nothing else does. -/
theorem Run.incoming (h : Run x log y) (d : Nat) :
    x.incoming d ++ handedTo d log = consumedBy d log ++ y.incoming d := by
  induction h with
  | nil x => simp [handedTo, consumedBy]
  | @cons x y z t log h hr ih =>
    calc x.incoming d ++ handedTo d ([t] ++ log)
        = (x.incoming d ++ handedTo d [t]) ++ handedTo d log := by
          rw [handedTo_append, List.append_assoc]
      _ = consumedBy d [t] ++ (y.incoming d ++ handedTo d log) := by
          rw [h.incoming, List.append_assoc]
      _ = consumedBy d ([t] ++ log) ++ z.incoming d := by
          rw [ih, consumedBy_append, List.append_assoc]

end Relay

end Switchboard
