import Mathlib
import Switchboard.Exchange

/-! Handing envelopes to endpoints: what one handing changes, and what routing hands to whom. -/
namespace Switchboard

/-- An envelope that is handed to an endpoint. -/
structure Handing where
  endpoint : Nat
  envelope : Envelope

namespace Endpoint

variable {σ : Type} {e f : Endpoint σ} {m : Envelope}

/-- The endpoint with an envelope at the end of its inbox, if anybody takes from there. -/
def holding (e : Endpoint σ) (m : Envelope) : Endpoint σ :=
  e.withIncoming ((e.incoming.push? m).getD e.incoming)

/-- What a sender is told when nobody takes from the inbox. -/
def complaint : Endpoint σ → Error
  | .mailbox b => .transport b.complaint
  | .peer p => .transport p.complaint
  | .service s => .routing ("endpoint " ++ s.route ++ " stopped")

theorem send_eq (e : Endpoint σ) (m : Envelope) :
    e.send m = if e.incoming.isOpen then .ok (e.holding m) else .error e.complaint := by
  cases e with
  | mailbox b =>
    cases hb : b.inbox.isOpen <;>
      simp [send, Mailbox.send, Except.map, holding, incoming, withIncoming, complaint,
        Queue.push?, hb]
  | peer p =>
    cases hp : p.inbox.isOpen <;>
      simp [send, Mailbox.send, Except.map, holding, incoming, withIncoming, complaint,
        Queue.push?, hp]
  | service s =>
    cases hs : s.input.isOpen <;>
      simp [send, Service.send, Except.map, holding, incoming, withIncoming, complaint,
        Queue.push?, hs]

theorem holding_of_shut (h : e.incoming.isOpen = false) : e.holding m = e := by
  cases e <;> simp_all [holding, incoming, withIncoming, Queue.push?]

end Endpoint

namespace Exchange

variable {σ : Type} {x y : Exchange σ} {k j : Nat} {m : Envelope} {source route : String}

theorem modify_eq_self {f : Endpoint σ → Endpoint σ}
    (h : ∀ e, x.endpoints[k]? = some e → f e = e) : x.modify k f = x := by
  have hl : x.endpoints.modify k f = x.endpoints := by
    apply List.ext_getElem?
    intro j
    by_cases hj : k = j
    · subst j
      cases he : x.endpoints[k]? <;> simp_all
    · simp [hj]
  simp [modify, hl]

theorem set_eq_modify {α : Type} {l : List α} {a : α} (f : α → α) (h : l[k]? = some a) :
    l.set k (f a) = l.modify k f := by
  obtain ⟨hk, rfl⟩ := List.getElem?_eq_some_iff.1 h
  apply List.ext_getElem?
  intro j
  by_cases hj : k = j
  · subst j
    simp [hk]
  · simp [hj]

/-- Whether it is taken or not, nothing but the one inbox depends on an envelope that is sent. -/
theorem send_fst (x : Exchange σ) (k : Nat) (m : Envelope) :
    (x.send k m).1 = x.modify k (·.holding m) := by
  unfold send
  cases he : x.endpoints[k]? with
  | none => exact (modify_eq_self (by simp [he])).symm
  | some e =>
    simp only [Endpoint.send_eq]
    cases ho : e.incoming.isOpen with
    | true => simp [modify, set_eq_modify (·.holding m) he]
    | false => exact (modify_eq_self (by simp [he, Endpoint.holding_of_shut ho])).symm

/-- What the sender of an envelope to an endpoint is told. -/
theorem send_snd {e : Endpoint σ} (he : x.endpoints[k]? = some e) :
    (x.send k m).2 = if e.incoming.isOpen then .ok () else .error e.complaint := by
  simp only [send, he, Endpoint.send_eq]
  cases e.incoming.isOpen <;> rfl

/-- The exchange after some envelopes are handed out, one after the other. -/
def handAll (x : Exchange σ) (hs : List Handing) : Exchange σ :=
  hs.foldl (fun x h => x.modify h.endpoint (·.holding h.envelope)) x

@[simp] theorem handAll_nil : x.handAll [] = x := rfl

@[simp] theorem handAll_singleton :
    x.handAll [⟨k, m⟩] = x.modify k (·.holding m) := rfl

@[simp] theorem router_modify (f : Endpoint σ → Endpoint σ) :
    (x.modify k f).router = x.router := rfl

@[simp] theorem minted_modify (f : Endpoint σ → Endpoint σ) :
    (x.modify k f).minted = x.minted := rfl

@[simp] theorem router_handAll (hs : List Handing) : (x.handAll hs).router = x.router := by
  induction hs generalizing x with
  | nil => rfl
  | cons h hs ih => exact ih

@[simp] theorem minted_handAll (hs : List Handing) : (x.handAll hs).minted = x.minted := by
  induction hs generalizing x with
  | nil => rfl
  | cons h hs ih => exact ih

/-- What the uplink is handed, if one is bound. -/
def uplinkHandings (r : Router) (m : Envelope) : List Handing :=
  (r.uplink.map fun b => ⟨b.endpoint, m⟩).toList

theorem sendUplink_fst (x : Exchange σ) (m : Envelope) :
    (x.sendUplink m).1 = x.handAll (uplinkHandings x.router m) := by
  unfold sendUplink uplinkHandings
  cases x.router.uplink <;> simp [send_fst]

/-- An envelope that is about routes and no message. -/
def IsControl (m : Envelope) : Prop :=
  m.command = some Command.routeAnnounceName ∨ m.command = some Command.routeUnannounceName

instance : Decidable (IsControl m) := inferInstanceAs (Decidable (_ ∨ _))

/-- What routing an envelope hands out. -/
def routeHandings (r : Router) (m : Envelope) (source : String) : List Handing :=
  if r.closed then []
  else
    let m := sourced m source
    if IsControl m then
      if source = uplinkRoute then [] else uplinkHandings r m
    else ((r.resolve? m.route source).map fun d => ⟨d.2.endpoint, m⟩).toList

/-- The tables after an envelope was routed: only announcements are noted. -/
def noted (r : Router) (m : Envelope) (source : String) : Router :=
  if r.closed ∨ source = uplinkRoute then r
  else if m.command = some Command.routeAnnounceName then
    r.noteAnnounced (m.source.getD source) source
  else if m.command = some Command.routeUnannounceName then
    r.noteUnannounced (m.source.getD source) source
  else r

theorem sendUplink_mapRouter_fst (f : Router → Router) (h : (f x.router).uplink = x.router.uplink) :
    ((x.mapRouter f).sendUplink m).1 = (x.mapRouter f).handAll (uplinkHandings x.router m) := by
  rw [sendUplink_fst]
  simp [uplinkHandings, mapRouter, h]

theorem tables_noteAnnounced (r : Router) (route source : String) :
    r.noteAnnounced route source =
      { r with announced := (r.noteAnnounced route source).announced } := by
  unfold Router.noteAnnounced
  split <;> rfl

theorem tables_noteUnannounced (r : Router) (route source : String) :
    r.noteUnannounced route source =
      { r with announced := (r.noteUnannounced route source).announced } := by
  unfold Router.noteUnannounced
  split <;> rfl

theorem deliver_fst (x : Exchange σ) (m : Envelope) (source : String) :
    (x.deliver m source).1
      = x.handAll ((x.router.resolve? m.route source).map fun d => ⟨d.2.endpoint, m⟩).toList := by
  unfold deliver
  cases hd : x.router.resolve? m.route source with
  | none => simp
  | some d =>
    have hs := send_fst x d.2.endpoint m
    generalize hv : x.send d.2.endpoint m = v at hs
    obtain ⟨y, r⟩ := v
    cases r <;> simp_all

theorem announce_fst (x : Exchange σ) (m : Envelope) (source : String) :
    (x.announce m source).1 = if source = uplinkRoute then x else
      (x.mapRouter (·.noteAnnounced (m.source.getD source) source)).handAll
        (uplinkHandings x.router m) := by
  unfold announce
  split
  · rfl
  · exact sendUplink_mapRouter_fst _ (by rw [tables_noteAnnounced])

theorem unannounce_fst (x : Exchange σ) (m : Envelope) (source : String) :
    (x.unannounce m source).1 = if source = uplinkRoute then x else
      (x.mapRouter (·.noteUnannounced (m.source.getD source) source)).handAll
        (uplinkHandings x.router m) := by
  unfold unannounce
  split
  · rfl
  · exact sendUplink_mapRouter_fst _ (by rw [tables_noteUnannounced])

/-- Routing notes what an announcement says and hands out what the tables say, and does
nothing else. -/
theorem route_fst (x : Exchange σ) (m : Envelope) (source : String) :
    (x.route m source).1
      = (x.mapRouter (noted · (sourced m source) source)).handAll
          (routeHandings x.router m source) := by
  unfold route routeHandings noted IsControl
  generalize sourced m source = m
  have hne : Command.routeUnannounceName ≠ Command.routeAnnounceName := by decide
  by_cases hc : x.router.closed = true
  · simp [hc, mapRouter]
  · by_cases ha : m.command = some Command.routeAnnounceName
    · by_cases hs : source = uplinkRoute <;> simp [hc, ha, hs, announce_fst, mapRouter]
    · by_cases hu : m.command = some Command.routeUnannounceName
      · by_cases hs : source = uplinkRoute <;>
          simp [hc, hu, hs, hne, unannounce_fst, mapRouter]
      · simp [hc, ha, hu, mapRouter, deliver_fst]

end Exchange

end Switchboard
