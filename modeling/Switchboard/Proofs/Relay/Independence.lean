import Switchboard.Proofs.Relay.Held

/-! What one endpoint is handed of what another says depends on the tables, on whether the first
listens, and on the turns that touch either; all other turns may be moved or left out. -/
namespace Switchboard

namespace Router

/-- The router with nothing in its pumps. -/
def emptied (r : Router) : Router :=
  { r with pumps := r.pumps.map fun u => { u with held := none } }

variable (r : Router)

@[simp] theorem emptied_emptied : r.emptied.emptied = r.emptied := by
  simp [emptied, List.map_map, Function.comp_def]

theorem emptied_cancelPump (p : Nat) : (r.cancelPump p).emptied = r.emptied.cancelPump p := by
  have hpumps : (r.pumps.modify p fun u => { u with cancelled := true }).map
        (fun u => { u with held := none })
      = (r.pumps.map fun u => { u with held := none }).modify p
        fun u => { u with cancelled := true } := by
    apply List.ext_getElem?
    intro j
    rw [List.getElem?_map, List.getElem?_modify, List.getElem?_modify, List.getElem?_map]
    cases r.pumps[j]? with
    | none => rfl
    | some u => by_cases hj : p = j <;> simp [hj]
  simp only [cancelPump, emptied, hpumps]

theorem emptied_cancelPumpOf (b : Option Binding) :
    (r.cancelPumpOf b).emptied = r.emptied.cancelPumpOf b := by
  cases b with
  | none => rfl
  | some b => exact emptied_cancelPump r b.pump

theorem emptied_foldl_cancelPump (ps : List Nat) (r : Router) :
    (ps.foldl cancelPump r).emptied = ps.foldl cancelPump r.emptied := by
  induction ps generalizing r with
  | nil => rfl
  | cons p ps ih => rw [List.foldl_cons, ih, emptied_cancelPump, List.foldl_cons]

/-- No operation looks at what pumps hold. -/
theorem emptied_table (op : Relay.Operation) (r : Router) :
    (op.table r.emptied).emptied = (op.table r).emptied := by
  cases op with
  | register route endpoint isLocal =>
    have h := emptied_cancelPumpOf r (r.routes.get? route)
    have hr : r.emptied.routes = r.routes := rfl
    simp only [Relay.Operation.table, register, hr, ← h]
    simp [emptied, List.map_map, Function.comp_def]
  | setUplink endpoint =>
    have h := emptied_cancelPumpOf r r.uplink
    have hr : r.emptied.uplink = r.uplink := rfl
    simp only [Relay.Operation.table, setUplink, hr, ← h]
    simp [emptied, List.map_map, Function.comp_def]
  | unregister route =>
    have hr : r.emptied.routes = r.routes := rfl
    simp only [Relay.Operation.table, unregister, hr]
    cases r.routes.get? route with
    | none => exact emptied_emptied r
    | some b =>
      simp only [emptied_cancelPump]
      exact congrArg (cancelPump · b.pump)
        (by simp [emptied, List.map_map, Function.comp_def])
  | clearUplink =>
    have h := emptied_cancelPumpOf r r.uplink
    have hr : r.emptied.uplink = r.uplink := rfl
    simp only [Relay.Operation.table, clearUplink, hr, ← h]
    simp [emptied, List.map_map, Function.comp_def]
  | shutdown =>
    have hr : r.emptied.closed = r.closed := rfl
    have hb : r.emptied.boundPumps = r.boundPumps := rfl
    have h := emptied_foldl_cancelPump r.boundPumps r
    simp only [Relay.Operation.table, shutdown, hr, hb, ← h]
    split
    · exact emptied_emptied r
    · simp [emptied, List.map_map, Function.comp_def]
  | withdraw route token =>
    cases token <;>
      simp [Relay.Operation.table, retract, revoke, emptied, List.map_map, Function.comp_def]
  | setDefault route => simp [Relay.Operation.table, emptied, List.map_map, Function.comp_def]
  | accept accepted minted =>
    simp [Relay.Operation.table, emptied, List.map_map, Function.comp_def]

theorem emptied_noted (m : Envelope) (source : String) :
    (Exchange.noted r m source).emptied = Exchange.noted r.emptied m source := by
  unfold Exchange.noted noteAnnounced noteUnannounced
  simp only [apply_ite emptied]
  rfl

end Router

namespace Exchange

variable {σ : Type} {x y : Exchange σ} {d k : Nat} {m : Envelope}

theorem emptied_setPump (x : Exchange σ) (p : Nat) (new : Option Envelope) :
    (x.setPump p new).router.emptied = x.router.emptied := by
  have hpumps := Router.map_modify_of_eq (fun u : Pump => { u with held := new })
    (fun u : Pump => { u with held := none }) (fun _ => rfl) x.router.pumps p
  simp only [setPump, mapRouter, Router.emptied, hpumps]

theorem isControl_sourced (m : Envelope) (source : String) :
    IsControl (sourced m source) ↔ IsControl m := by
  unfold sourced
  split <;> rfl

/-- Routing a message changes no table. -/
theorem noted_of_not_isControl (h : ¬IsControl m) (r : Router) (source : String) :
    noted r m source = r := by
  rw [IsControl, not_or] at h
  simp [noted, h]

theorem router_forward {p : Nat} {u : Pump} (hu : x.router.pumps[p]? = some u)
    (hm : u.held = some m) :
    (x.forward p).1.router.emptied
      = noted x.router.emptied (sourced m u.source) u.source := by
  obtain ⟨source, endpoint, cancelled, held⟩ := u
  subst hm
  simp only [forward, hu]
  rw [route_fst, router_handAll]
  exact (Router.emptied_noted _ _ _).trans (by rw [emptied_setPump])

theorem listens_withIncoming {e : Endpoint σ} (he : x.endpoints[k]? = some e) (q : Queue) :
    (x.modify k (·.withIncoming q)).listens d = if k = d then q.isOpen else x.listens d := by
  by_cases hk : k = d
  · subst d
    simp [listens, endpoints_modify_self he]
  · simp [listens, endpoints_modify_of_ne hk, hk]

theorem listens_withOutgoing (x : Exchange σ) (k d : Nat) (q : Queue) :
    (x.modify k (·.withOutgoing q)).listens d = x.listens d :=
  listens_modify fun e => by rw [e.incoming_withOutgoing]

theorem listens_setPump (p : Nat) (new : Option Envelope) :
    (x.setPump p new).listens d = x.listens d := rfl

theorem listens_eq {e : Endpoint σ} (he : x.endpoints[k]? = some e) :
    x.listens k = e.incoming.isOpen := by
  simp [listens, he]

end Exchange

namespace Relay

open Exchange

variable {σ : Type} {x y z : Exchange σ} {t : Entry} {log more : List Entry} {s d k : Nat}

/-- The tables, and whether an endpoint listens. -/
structure View where
  tables : Router
  listening : Bool

def view (d : Nat) (x : Exchange σ) : View := ⟨x.router.emptied, x.listens d⟩

/-- Whether a turn bears on what `d` is handed of what `s` says: messages of others do not. -/
def Turn.bears (s d : Nat) : Turn → Bool
  | .forward k _ m => k = s || decide (IsControl m)
  | .inject _ m => decide (IsControl m)
  | .shut k => k = d
  | .operate _ => true
  | _ => false

namespace View

/-- What a turn makes of the view. -/
def next (d : Nat) (v : View) : Turn → View
  | .forward _ source m | .inject source m =>
    { v with tables := noted v.tables (sourced m source) source }
  | .shut k => { v with listening := v.listening && k ≠ d }
  | .operate op => { v with tables := (op.table v.tables).emptied }
  | _ => v

/-- What `d` is handed by a turn of what `s` says. -/
def yields (s d : Nat) (v : View) : Turn → List Envelope
  | .forward k source m =>
    if k = s then
      ((routeHandings v.tables m source).filter fun h => h.endpoint = d && v.listening).map
        Handing.envelope
    else []
  | _ => []

/-- What `d` is handed of what `s` says in the course of some turns. -/
def replay (s d : Nat) : View → List Turn → List Envelope
  | _, [] => []
  | v, t :: ts => v.yields s d t ++ replay s d (v.next d t) ts

theorem next_of_not_bears {t : Turn} (h : t.bears s d = false) (v : View) : v.next d t = v := by
  cases t with
  | forward k source m =>
    simp only [Turn.bears, Bool.or_eq_false_iff, decide_eq_false_iff_not] at h
    have hm := mt (isControl_sourced m source).1 h.2
    simp only [next, noted_of_not_isControl hm]
  | inject source m =>
    simp only [Turn.bears, decide_eq_false_iff_not] at h
    have hm := mt (isControl_sourced m source).1 h
    simp only [next, noted_of_not_isControl hm]
  | shut k =>
    simp only [Turn.bears, decide_eq_false_iff_not] at h
    simp [next, h]
  | operate op => simp [Turn.bears] at h
  | produce | consume | change | fetch => rfl

theorem yields_of_not_bears {t : Turn} (h : t.bears s d = false) (v : View) :
    v.yields s d t = [] := by
  cases t with
  | forward k source m =>
    simp only [Turn.bears, Bool.or_eq_false_iff, decide_eq_false_iff_not] at h
    simp [yields, h.1]
  | inject | shut | operate | produce | consume | change | fetch => rfl

theorem replay_filter (v : View) (ts : List Turn) :
    v.replay s d (ts.filter (Turn.bears s d)) = v.replay s d ts := by
  induction ts generalizing v with
  | nil => rfl
  | cons t ts ih =>
    cases ht : t.bears s d with
    | true => simp [ht, replay, ih]
    | false => simp [ht, replay, ih, next_of_not_bears ht, yields_of_not_bears ht]

end View

/-- The view after a step depends on the view before it and on the turn. -/
theorem Step.view_eq (h : Step x t y) (d : Nat) : view d y = (view d x).next d t.turn := by
  cases h with
  | @produce k e m q he hq =>
    simp only [view, View.next, listens_withOutgoing]
    rfl
  | @consume k e ms rest he hq =>
    have hl : (x.modify k (·.withIncoming { e.incoming with items := rest })).listens d
        = x.listens d := by
      rw [listens_withIncoming he]
      split
      · rename_i hk
        rw [← hk, listens_eq he]
      · rfl
    simp only [view, View.next, hl]
    rfl
  | @shut k e he =>
    have hl : (x.modify k (·.withIncoming e.incoming.close)).listens d
        = (x.listens d && k ≠ d) := by
      rw [listens_withIncoming he]
      by_cases hk : k = d <;> simp [hk, Queue.close]
    simp only [view, View.next, hl]
    rfl
  | @change k f hf =>
    have hl : (x.modify k f).listens d = x.listens d := listens_modify fun e => by rw [(hf e).1]
    simp only [view, View.next, hl]
    rfl
  | fetch hu hidle hy =>
    obtain ⟨e, rest, he, m, hm, rfl⟩ := fetch_cases hu hy
    simp only [view, View.next, emptied_setPump, listens_setPump, listens_withOutgoing]
    rfl
  | @forward p u m hu hm =>
    have hl : (x.forward p).1.listens d = x.listens d :=
      (listens_congr (endpoints_forward hu hm) d).trans (listens_handAll _ x d)
    simp only [view, View.next, hl, router_forward hu hm]
  | inject source m =>
    have hl : (x.route m source).1.listens d = x.listens d :=
      (listens_congr (endpoints_route m source) d).trans (listens_handAll _ x d)
    have hr : (x.route m source).1.router = noted x.router (sourced m source) source := by
      rw [route_fst, router_handAll]
      rfl
    simp only [view, View.next, hl, hr, Router.emptied_noted]
  | operate op hnew =>
    have hl : (op.apply x).listens d = x.listens d :=
      (listens_congr (endpoints_apply op x) d).trans (listens_handAll _ x d)
    simp only [view, View.next, hl, router_apply, Router.emptied_table]

theorem Step.handedFrom_eq (h : Step x t y) (s d : Nat) :
    handedFrom s d [t] = (view d x).yields s d t.turn := by
  cases h with
  | @forward p u m hu hm =>
    by_cases hk : u.endpoint = s
    · have hroute : routeHandings x.router.emptied m u.source
          = routeHandings x.router m u.source := rfl
      simp only [handedFrom, View.yields, view, hk, hroute, List.flatMap_cons, List.flatMap_nil,
        if_true, List.append_nil, taken, List.filter_filter]
      congr 2
      funext h
      by_cases hd : h.endpoint = d <;> simp [hd]
    · simp [handedFrom, View.yields, hk]
  | produce | consume | shut | change | fetch | inject | operate => rfl

theorem Run.handedFrom_eq (h : Run x log y) (s d : Nat) :
    handedFrom s d log = (view d x).replay s d (log.map Entry.turn) := by
  induction h with
  | nil x => rfl
  | @cons x y z t log h hr ih =>
    have hstep := h.handedFrom_eq s d
    rw [handedFrom, List.flatMap_cons, List.flatMap_nil, List.append_nil] at hstep
    rw [handedFrom, List.flatMap_cons, hstep, List.map_cons, View.replay, ← h.view_eq d, ← ih]
    rfl

/-- Two runs hand the same of what `s` says to `d` if they agree in the turns that bear on it. -/
theorem Run.handedFrom_congr {y' : Exchange σ} {log' : List Entry} (h : Run x log y)
    (h' : Run x log' y') (hturns : (log.map Entry.turn).filter (Turn.bears s d)
      = (log'.map Entry.turn).filter (Turn.bears s d)) :
    handedFrom s d log = handedFrom s d log' := by
  calc handedFrom s d log
      = (view d x).replay s d ((log.map Entry.turn).filter (Turn.bears s d)) := by
        rw [h.handedFrom_eq, View.replay_filter]
    _ = handedFrom s d log' := by
        rw [hturns, View.replay_filter, ← h'.handedFrom_eq]

end Relay

end Switchboard
