import Switchboard.Proofs.Service.Play
import Switchboard.Proofs.Service.Rest

/-! Disposals in the course of a run. The loop hands a disposal to the handler before it takes in
anything else, but the jobs go on meanwhile: what is taken in after a disposal is handled after it,
and what was taken in before it may be handled before or after it. -/
namespace Switchboard

/-- The route that an envelope asks to dispose of. -/
def Envelope.disposed? (m : Envelope) : Option String :=
  match m.command? with
  | .ok (some (.dispose route)) => some route
  | _ => none

/-- The command, until the handler has it. -/
def Job.waiting? (j : Job) : Option Envelope :=
  match j.stage with
  | .delivered | .begun => some j.request
  | _ => none

/-- The route of the disposal that the handler is to be given. -/
def Loop.disposing? : Loop → Option String
  | .disposing route => some route
  | _ => none

namespace Service

open scoped List

variable {σ : Type} {h : Handler σ} {s t u : Service σ} {es : List Event} {m : Envelope}
  {route : String}

/-- The commands that the loop has taken in and the handler does not have yet. -/
def waiting (s : Service σ) : List Envelope := s.jobs.filterMap Job.waiting?

/-- The service when its handler has disposed of a route. -/
def relieved (h : Handler σ) (s : Service σ) (route : String) : Service σ :=
  { s with state := h.dispose s.state route, loop := .disposed }

/-- Something that happens at a service, or the release of a route. -/
inductive Deed where
  | event (e : Event)
  /-- The handler has disposed of a route. -/
  | released (route : String)

@[simp] def Deed.event? : Deed → Option Event
  | event e => some e
  | released _ => none

@[simp] def Deed.released? : Deed → Option String
  | released route => some route
  | event _ => none

variable {ds : List Deed}

def events (ds : List Deed) : List Event := ds.filterMap Deed.event?

/-- The routes that the handler has disposed of. -/
def releases (ds : List Deed) : List String := ds.filterMap Deed.released?

/-- A step at a service whose handler has no other business than its commands and disposals. -/
inductive Move (h : Handler σ) (s : Service σ) : List Deed → Service σ → Prop
  | release {route : String} {t : Service σ} (hl : s.loop = .disposing route)
      (ht : s.dispose? h = some t) : Move h s [.released route] t
  /-- All else leaves a disposal to the loop, and the handler's state to what it handles. -/
  | other {es : List Event} {t : Service σ} (hst : Step h s es t)
      (hl : ∀ route, s.loop = .disposing route → t.loop = .disposing route)
      (hk : handled es = [] → t.state = s.state) : Move h s (es.map .event) t

/-- Moves one after the other, with all that happened. -/
inductive Moves (h : Handler σ) (s : Service σ) : List Deed → Service σ → Prop
  | refl : Moves h s [] s
  | tail {ds fs : List Deed} {t u : Service σ} (hr : Moves h s ds t) (hm : Move h t fs u) :
      Moves h s (ds ++ fs) u

theorem events_append (ds fs : List Deed) : events (ds ++ fs) = events ds ++ events fs :=
  List.filterMap_append

theorem releases_append (ds fs : List Deed) : releases (ds ++ fs) = releases ds ++ releases fs :=
  List.filterMap_append

@[simp] theorem events_released (route : String) (ds : List Deed) :
    events (.released route :: ds) = events ds := rfl

@[simp] theorem events_map (es : List Event) : events (es.map .event) = es := by
  simp [events, List.filterMap_map, Function.comp_def]

@[simp] theorem releases_map (es : List Event) : releases (es.map .event) = [] := by
  simp [releases, List.filterMap_map, Function.comp_def]

theorem Moves.run (hr : Moves h s ds t) : Run h s (events ds) t := by
  induction hr with
  | refl => exact .refl
  | tail _ hm ih =>
    rw [events_append]
    apply ih.tail
    cases hm with
    | release hl ht => exact .progress (.dispose ht)
    | other hst hl hk =>
      rw [events_map]
      exact hst

section Waiting

theorem unsettled_perm (s : Service σ) : s.unsettled ~ s.waiting ++ s.outcomes.map (·.1) := by
  unfold unsettled waiting outcomes
  induction s.jobs with
  | nil => exact .nil
  | cons j js ih =>
    obtain ⟨m, stage⟩ := j
    cases stage with
    | delivered | begun =>
      simpa [Job.isDone, Job.waiting?, Job.outcome?, List.filterMap_cons] using ih
    | working | worked =>
      simpa [Job.isDone, Job.waiting?, Job.outcome?, List.filterMap_cons] using
        (ih.cons m).trans List.perm_middle.symm
    | finished => simpa [Job.isDone, Job.waiting?, Job.outcome?, List.filterMap_cons] using ih

/-- The handler gets the commands that are taken in, each once, and in any order. -/
theorem Balanced.waiting (hb : Balanced s es t) : (Service.handled es).map (·.1) ++ t.waiting ~
    s.waiting ++ (received es).filter (·.isWork) := by
  have hh := hb.handled.map (·.1)
  rw [List.map_append, List.map_append] at hh
  refine (List.perm_append_right_iff (s.outcomes.map (·.1))).1 ?_
  calc (Service.handled es).map (·.1) ++ t.waiting ++ s.outcomes.map (·.1)
      ~ (Service.handled es).map (·.1) ++ s.outcomes.map (·.1) ++ t.waiting := by
        rw [List.append_assoc, List.append_assoc]
        exact List.perm_append_comm.append_left _
    _ ~ (Service.settled es).map (·.1) ++ t.outcomes.map (·.1) ++ t.waiting := hh.append_right _
    _ ~ (Service.settled es).map (·.1) ++ t.unsettled := by
        rw [List.append_assoc]
        exact (List.perm_append_comm.trans t.unsettled_perm.symm).append_left _
    _ ~ s.unsettled ++ (received es).filter (·.isWork) := hb.settled
    _ ~ s.waiting ++ s.outcomes.map (·.1) ++ (received es).filter (·.isWork) :=
        s.unsettled_perm.append_right _
    _ ~ s.waiting ++ (received es).filter (·.isWork) ++ s.outcomes.map (·.1) := by
        rw [List.append_assoc, List.append_assoc]
        exact List.perm_append_comm.append_left _

theorem Clear.waiting (hs : s.Clear) : s.waiting = [] := by
  refine List.filterMap_eq_nil_iff.2 fun j hj => ?_
  simp [Job.waiting?, j.isDone_iff.1 (hs.jobs j hj)]

end Waiting

@[simp] theorem loop_emit (s : Service σ) (m : Envelope) : (s.emit m).loop = s.loop := by
  obtain ⟨q, he⟩ := s.exists_emit_eq m
  rw [he]

@[simp] theorem state_emit (s : Service σ) (m : Envelope) : (s.emit m).state = s.state := by
  obtain ⟨q, he⟩ := s.exists_emit_eq m
  rw [he]

/-- Only a disposal turns the loop from what comes in. -/
theorem disposing_dispatch (hl : s.loop.disposing? = none) (m : Envelope) :
    (s.dispatch m).loop.disposing? = m.disposed? := by
  rcases s.dispatch_cases m with ⟨hr, hd⟩ | ⟨route, hc, hd⟩ | ⟨hw, hd⟩ | ⟨hc, hd⟩ | ⟨e, hc, hd⟩
  · have hc := Envelope.command?_eq_none_iff.2 (Envelope.isCommand_of_isResponse hr)
    obtain ⟨pending, calls, hcomplete⟩ := s.exists_complete_eq m
    rw [hd, hcomplete, Envelope.disposed?, hc]
    exact hl
  · rw [hd, Envelope.disposed?, hc]
    rfl
  · have hm : m.disposed? = none := by
      unfold Envelope.isWork at hw
      unfold Envelope.disposed?
      split at hw <;> simp_all
    rw [hd, hm]
    exact hl
  · rw [hd, Envelope.disposed?, hc]
    exact hl
  · rw [hd, Envelope.disposed?, hc]
    split
    · rw [respondWith, loop_emit]
      exact hl
    · exact hl

/-- The loop leaves the handler's state alone. -/
theorem state_dispatch (s : Service σ) (m : Envelope) : (s.dispatch m).state = s.state := by
  rcases s.dispatch_cases m with ⟨-, hd⟩ | ⟨route, -, hd⟩ | ⟨-, hd⟩ | ⟨-, hd⟩ | ⟨e, -, hd⟩
  · obtain ⟨pending, calls, hcomplete⟩ := s.exists_complete_eq m
    rw [hd, hcomplete]
  · rw [hd]
  · rw [hd]
  · rw [hd]
  · rw [hd]
    split
    · exact state_emit _ _
    · rfl

/-- A step gives the handler one command at most, and then leaves its state as the handler does. -/
theorem Step.handles (hst : Step h s es t) : handled es = [] ∨ ∃ now m,
    handled es = [(m, (h.handle s.state now s.identity m).2.outcome)] ∧
      t.state = (h.handle s.state now s.identity m).1 := by
  cases hst with
  | progress hp =>
    cases hp with
    | receive ht => exact .inl (by unfold receptions; split <;> rfl)
    | work now k ht =>
      rcases work_cases ht with ⟨m, stage, hj, -, rfl⟩ | ⟨m, due, outcome, hj, rfl⟩
      · exact .inr ⟨now, m, by simp [handlings, hj, handled], rfl⟩
      · exact .inl (by simp [handlings, hj, handled])
    | answer k ht => exact .inl (by unfold settlements; split <;> rfl)
    | dispose | begin => exact .inl rfl
  | post now k ht => exact .inl (by unfold postings; split <;> rfl)
  | _ => exact .inl rfl

/-- What a step means to the loop: it takes one envelope in, and is at a disposal if that is one;
or it is at the same disposal as before, or at none. -/
theorem Step.disposing (hst : Step h s es t) :
    (∃ m, received es = [m] ∧ s.loop.disposing? = none ∧ t.loop.disposing? = m.disposed?) ∨
      received es = [] ∧ (t.loop.disposing? = s.loop.disposing? ∨ t.loop.disposing? = none) := by
  have kept {w : Service σ} {fs : List Event} (hr : received fs = []) (hw : w.loop = s.loop) :
      received fs = [] ∧ (w.loop.disposing? = s.loop.disposing? ∨ w.loop.disposing? = none) :=
    ⟨hr, .inl (by rw [hw])⟩
  cases hst with
  | progress hp =>
    cases hp with
    | receive ht =>
      rcases receive_cases ht with ⟨m, rest, hl, hi, rfl⟩ | ⟨hl, hi, -, rfl⟩ | ⟨hl, rfl⟩
      · have hn : s.loop.disposing? = none := by rw [hl]; rfl
        refine .inl ⟨m, ?_, hn, disposing_dispatch ?_ m⟩
        · simp [receptions, hl, hi, received]
        · exact hn
      · exact .inr ⟨by simp [receptions, hl, hi, received], .inr rfl⟩
      · exact .inr ⟨by simp [receptions, hl, received], .inr rfl⟩
    | dispose ht =>
      obtain ⟨route, -, rfl⟩ := dispose_cases ht
      exact .inr ⟨rfl, .inr rfl⟩
    | begin k ht =>
      obtain ⟨m, -, rfl⟩ := begin_cases ht
      exact .inr (kept rfl rfl)
    | work now k ht =>
      have hr : received (s.handlings h now k) = [] := by unfold handlings; split <;> rfl
      rcases work_cases ht with ⟨m, stage, -, -, rfl⟩ | ⟨m, due, outcome, -, rfl⟩ <;>
        exact .inr (kept hr rfl)
    | answer k ht =>
      have hr : received (s.settlements k) = [] := by unfold settlements; split <;> rfl
      obtain ⟨m, outcome, -, rfl⟩ := answer_cases ht
      refine .inr (kept hr ?_)
      split
      · exact loop_emit _ _
      · rfl
  | start ht =>
    obtain ⟨-, rfl⟩ := start_cases ht
    exact .inr ⟨rfl, .inr rfl⟩
  | deliver m ht =>
    obtain ⟨-, rfl⟩ := send_cases ht
    exact .inr (kept rfl rfl)
  | say c q => exact .inr (kept rfl (loop_emit _ _))
  | post now k ht =>
    have hr : received (s.postings k) = [] := by unfold postings; split <;> rfl
    obtain ⟨id, response, m, -, rfl⟩ := post_cases ht
    exact .inr (kept hr (loop_emit _ _))
  | expire now k ht =>
    obtain ⟨id, deadline, -, -, rfl⟩ := expire_cases ht
    exact .inr (kept rfl rfl)
  | «return» k ht =>
    rcases return_cases ht with ⟨id, deadline, m, -, -, rfl⟩ | ⟨id, response, -, -, rfl⟩ <;>
      exact .inr (kept rfl rfl)
  | enter | take | alter => exact .inr (kept rfl rfl)

/-- The disposals taken in by some deeds. -/
def disposals (ds : List Deed) : List String :=
  (received (events ds)).filterMap Envelope.disposed?

theorem disposals_append (ds fs : List Deed) :
    disposals (ds ++ fs) = disposals ds ++ disposals fs := by
  simp only [disposals, events_append, received_append, List.filterMap_append]

/-- A move that is no release takes one envelope in, or leaves the loop at its disposal. -/
theorem Move.disposing (hst : Step h s es t)
    (hl : ∀ route, s.loop = .disposing route → t.loop = .disposing route) :
    (∃ m, received es = [m] ∧ s.loop.disposing? = none ∧ t.loop.disposing? = m.disposed?) ∨
      received es = [] ∧ t.loop.disposing? = s.loop.disposing? := by
  rcases hst.disposing with hm | ⟨hr, hd | hd⟩
  · exact .inl hm
  · exact .inr ⟨hr, hd⟩
  · refine .inr ⟨hr, ?_⟩
    cases hs : s.loop with
    | disposing route =>
      rw [hl route hs] at hd
      cases hd
    | _ => exact hd

theorem Move.trail (hm : Move h s ds t) :
    s.loop.disposing?.toList ++ disposals ds = releases ds ++ t.loop.disposing?.toList := by
  cases hm with
  | @release route _ hl ht =>
    obtain ⟨q, -, rfl⟩ := dispose_cases ht
    rw [hl]
    rfl
  | @other es _ hst hl hk =>
    rw [releases_map, disposals, events_map]
    rcases Move.disposing hst hl with ⟨m, hr, hs, ht⟩ | ⟨hr, hd⟩
    · cases hm : m.disposed? <;> simp [hr, hs, ht, hm]
    · simp [hr, hd]

/-- Disposals are released in the order in which they are taken in, and each before the next. -/
theorem Moves.trail (hr : Moves h s ds t) :
    s.loop.disposing?.toList ++ disposals ds = releases ds ++ t.loop.disposing?.toList := by
  induction hr with
  | refl => exact List.append_nil _
  | @tail ds fs t u hr hm ih =>
    calc s.loop.disposing?.toList ++ disposals (ds ++ fs)
        = releases ds ++ (t.loop.disposing?.toList ++ disposals fs) := by
          rw [disposals_append, ← List.append_assoc, ih, List.append_assoc]
      _ = releases (ds ++ fs) ++ u.loop.disposing?.toList := by
          rw [hm.trail, releases_append, List.append_assoc]

/-- As long as the loop is at a disposal, that is the last envelope it has taken in. -/
theorem Moves.at_disposal (hr : Moves h s ds t) (hs : s.loop.disposing? = none)
    (ht : t.loop.disposing? = some route) :
    ∃ ms d, received (events ds) = ms ++ [d] ∧ d.disposed? = some route := by
  induction hr with
  | refl => simp [hs] at ht
  | @tail ds fs t u hr hm ih =>
    rw [events_append, received_append]
    cases hm with
    | release hl hu =>
      obtain ⟨q, -, rfl⟩ := dispose_cases hu
      cases ht
    | other hst hl hk =>
      rw [events_map]
      rcases Move.disposing hst hl with ⟨m, hm, -, hd⟩ | ⟨hm, hd⟩
      · exact ⟨_, m, by rw [hm], by rw [← hd, ht]⟩
      · obtain ⟨ms, d, hms, hroute⟩ := ih (hd ▸ ht)
        exact ⟨ms, d, by rw [hm, List.append_nil, hms], hroute⟩

/-- A run splits at the last release of a route. -/
theorem Moves.last_release (hr : Moves h s ds t) (hd : route ∈ releases ds) :
    ∃ earlier u later, ds = earlier ++ .released route :: later ∧ Moves h s earlier u ∧
      u.loop = .disposing route ∧ route ∉ releases later ∧
      Moves h (u.relieved h route) later t := by
  induction hr with
  | refl => cases hd
  | @tail ds fs t u hr hm ih =>
    by_cases hf : route ∈ releases fs
    · cases hm with
      | @release q _ hl hu =>
        obtain rfl : route = q := by simpa [releases] using hf
        obtain ⟨q, hq, rfl⟩ := dispose_cases hu
        obtain rfl : route = q := by rw [hl] at hq; exact Loop.disposing.inj hq
        exact ⟨ds, t, [], rfl, hr, hl, by simp [releases], .refl⟩
      | other => simp at hf
    · have hds : route ∈ releases ds := by
        rw [releases_append, List.mem_append] at hd
        exact hd.resolve_right hf
      obtain ⟨earlier, v, later, rfl, he, hv, hn, hl⟩ := ih hds
      refine ⟨earlier, v, later ++ fs, by simp, he, hv, ?_, hl.tail hm⟩
      rw [releases_append, List.mem_append]
      exact not_or.2 ⟨hn, hf⟩

/-- The last element of a kind splits a list in one way only. -/
theorem append_cons_inj {α : Type} {p : α → Prop} {a b : α} {xs ys us vs : List α} (ha : p a)
    (hb : p b) (hys : ∀ x ∈ ys, ¬p x) (hvs : ∀ x ∈ vs, ¬p x) (he : xs ++ a :: ys = us ++ b :: vs) :
    xs = us ∧ a = b ∧ ys = vs := by
  rcases List.append_eq_append_iff.1 he with ⟨zs, rfl, hz⟩ | ⟨zs, rfl, hz⟩
  · cases zs with
    | nil => simp_all
    | cons z zs =>
      obtain ⟨-, rfl⟩ := List.cons.inj hz
      exact absurd hb (hys b (by simp))
  · cases zs with
    | nil => simp_all
    | cons z zs =>
      obtain ⟨-, rfl⟩ := List.cons.inj hz
      exact absurd ha (hvs a (by simp))

theorem not_isWork_of_disposed? (h : m.disposed? = some route) : m.isWork = false := by
  unfold Envelope.disposed? at h
  unfold Envelope.isWork
  split at h <;> simp_all

/-- From rest to rest, the last disposal of a route parts what the handler is given: all that is
delivered after it is handled after it, and so are those commands that were delivered before it and
had to wait. -/
theorem Moves.parted {before after : List Envelope} {d : Envelope} (hr : Moves h s ds t)
    (hs : s.Sound) (hi : s.Idle) (ht : t.Idle)
    (hdelivered : delivered (events ds) = before ++ d :: after)
    (hd : d.disposed? = some route) (hafter : ∀ m ∈ after, m.disposed? ≠ some route) :
    ∃ (earlier : List Deed) (u : Service σ) (later : List Deed),
      ds = earlier ++ .released route :: later ∧ route ∉ releases later ∧
      Moves h (u.relieved h route) later t ∧
      (handled (events earlier)).map (·.1) ++ u.waiting ~ before.filter (·.isWork) ∧
      (handled (events later)).map (·.1) ~ u.waiting ++ after.filter (·.isWork) := by
  obtain ⟨-, hb⟩ := hr.run.balanced hs
  have hall : received (events ds) = before ++ d :: after := by
    rw [← hdelivered]
    simpa [hi.input, ht.input] using hb.input.symm
  have hidle {w : Service σ} (hw : w.Idle) : w.loop.disposing? = none := by rw [hw.loop]; rfl
  have hmem : route ∈ releases ds := by
    have htrail : disposals ds = releases ds := by
      simpa [hidle hi, hidle ht] using hr.trail
    rw [← htrail, disposals, hall]
    exact List.mem_filterMap.2 ⟨d, by simp, hd⟩
  obtain ⟨earlier, u, later, rfl, he, hu, hn, hl⟩ := hr.last_release hmem
  obtain ⟨hsound, hbe⟩ := he.run.balanced hs
  have hdisposing : u.loop.disposing? = some route := by rw [hu]; rfl
  obtain ⟨ms, d', hms, hd'⟩ := he.at_disposal (hidle hi) hdisposing
  have hlater : ∀ m ∈ received (events later), m.disposed? ≠ some route := by
    intro m hm hroute
    have htrail : disposals later = releases later := by
      simpa [hidle ht, show (u.relieved h route).loop.disposing? = none from rfl] using hl.trail
    exact hn (htrail ▸ List.mem_filterMap.2 ⟨m, hm, hroute⟩)
  obtain ⟨rfl, rfl, rfl⟩ : ms = before ∧ d' = d ∧ received (events later) = after := by
    refine append_cons_inj (p := fun m => m.disposed? = some route) hd' hd hlater hafter ?_
    rw [← hall, events_append, received_append, hms, events_released, List.append_assoc]
    rfl
  have hrelieved : (u.relieved h route).Sound :=
    ⟨by simp [relieved], hsound.input, hsound.output⟩
  have hble := (hl.run.balanced hrelieved).2
  refine ⟨earlier, u, later, rfl, hn, hl, ?_, ?_⟩
  · have := hbe.waiting
    rw [hms, hi.waiting] at this
    simpa [not_isWork_of_disposed? hd] using this
  · have := hble.waiting
    rwa [ht.waiting, List.append_nil] at this

theorem eq_of_map {o : Option (Service σ)} {fs : List Event} (ho : o.map (fs, ·) = some (es, t)) :
    o = some t ∧ fs = es := by
  obtain ⟨u, hu, he⟩ := Option.map_eq_some_iff.1 ho
  cases he
  exact ⟨hu, rfl⟩

/-- Whatever is done at a service other than a disposal leaves that to the loop, and the handler's
state to what it handles. -/
theorem act_keeps {a : Act} (ha : s.act? h a = some (es, t)) (hn : a ≠ .dispose) :
    (∀ route, s.loop = .disposing route → t.loop = .disposing route) ∧
      (handled es = [] → t.state = s.state) := by
  have kept {w : Service σ} (hl : w.loop = s.loop) (hs : w.state = s.state) :
      (∀ route, s.loop = .disposing route → w.loop = .disposing route) ∧
        (handled es = [] → w.state = s.state) :=
    ⟨fun _ h => hl.trans h, fun _ => hs⟩
  cases a with
  | dispose => exact absurd rfl hn
  | deliver m =>
    obtain ⟨hw, rfl⟩ := eq_of_map ha
    cases hsend : s.send m with
    | error e => simp [hsend, Except.toOption] at hw
    | ok v =>
      obtain rfl : v = t := by simpa [hsend, Except.toOption] using hw
      obtain ⟨-, rfl⟩ := send_cases hsend
      exact kept rfl rfl
  | receive =>
    obtain ⟨hw, rfl⟩ := eq_of_map ha
    rcases receive_cases hw with ⟨m, rest, hl, -, rfl⟩ | ⟨hl, -, -, rfl⟩ | ⟨hl, rfl⟩
    · exact ⟨fun route h => absurd (hl.symm.trans h) (by simp), fun _ => state_dispatch _ m⟩
    · exact ⟨fun route h => absurd (hl.symm.trans h) (by simp), fun _ => rfl⟩
    · exact ⟨fun route h => absurd (hl.symm.trans h) (by simp), fun _ => rfl⟩
  | begin k =>
    obtain ⟨hw, rfl⟩ := eq_of_map ha
    obtain ⟨m, -, rfl⟩ := begin_cases hw
    exact kept rfl rfl
  | work now k =>
    obtain ⟨hw, rfl⟩ := eq_of_map ha
    rcases work_cases hw with ⟨m, stage, hj, -, rfl⟩ | ⟨m, due, outcome, -, rfl⟩
    · refine ⟨fun _ h => h, fun hnone => ?_⟩
      simp [handlings, hj, handled] at hnone
    · exact kept rfl rfl
  | answer k =>
    obtain ⟨hw, rfl⟩ := eq_of_map ha
    obtain ⟨m, outcome, -, rfl⟩ := answer_cases hw
    split
    · exact kept (loop_emit _ _) (state_emit _ _)
    · exact kept rfl rfl
  | enter id c q =>
    cases ha
    exact kept rfl rfl
  | post now k =>
    obtain ⟨hw, rfl⟩ := eq_of_map ha
    obtain ⟨id, response, m, -, rfl⟩ := post_cases hw
    exact kept (loop_emit _ _) (state_emit _ _)
  | expire now k =>
    obtain ⟨hw, rfl⟩ := eq_of_map ha
    obtain ⟨id, deadline, -, -, rfl⟩ := expire_cases hw
    exact kept rfl rfl
  | «return» k =>
    obtain ⟨⟨result, w⟩, hw, he⟩ := Option.map_eq_some_iff.1 ha
    cases he
    rcases return_cases hw with ⟨id, deadline, m, -, -, rfl⟩ | ⟨id, response, -, -, rfl⟩ <;>
      exact kept rfl rfl

theorem Progress.exists_act (hp : Progress h s es t) : ∃ a, s.act? h a = some (es, t) := by
  cases hp with
  | receive ht => exact ⟨.receive, by simp [act?, ht]⟩
  | dispose ht => exact ⟨.dispose, by simp [act?, ht]⟩
  | begin k ht => exact ⟨.begin k, by simp [act?, ht]⟩
  | work now k ht => exact ⟨.work now k, by simp [act?, ht]⟩
  | answer k ht => exact ⟨.answer k, by simp [act?, ht]⟩

/-- Whatever the loop and the jobs do is a move, so that moves come in every order in which these can
go on. -/
theorem Progress.exists_move (hp : Progress h s es t) :
    ∃ ds, Move h s ds t ∧ events ds = es := by
  obtain ⟨a, ha⟩ := hp.exists_act
  by_cases hn : a = .dispose
  · subst hn
    obtain ⟨hu, rfl⟩ := eq_of_map ha
    obtain ⟨route, hl, -⟩ := dispose_cases hu
    exact ⟨[.released route], .release hl hu, rfl⟩
  · obtain ⟨hl, hk⟩ := act_keeps ha hn
    exact ⟨es.map .event, .other (step_of_act? ha) hl hk, events_map es⟩

/-- What comes of an act, with the release of a route if it is a disposal. -/
def deed? (h : Handler σ) (s : Service σ) : Act → Option (List Deed × Service σ)
  | .dispose => s.loop.disposing?.bind fun route => (s.dispose? h).map ([.released route], ·)
  | a => (s.act? h a).map fun e => (e.1.map .event, e.2)

theorem deed?_of_ne {a : Act} (hn : a ≠ .dispose) :
    s.deed? h a = (s.act? h a).map fun e => (e.1.map .event, e.2) := by
  cases a with
  | dispose => exact absurd rfl hn
  | _ => rfl

theorem move_of_deed? {a : Act} (ha : s.deed? h a = some (ds, t)) : Move h s ds t := by
  by_cases hn : a = .dispose
  · subst hn
    obtain ⟨route, hl, ha⟩ := Option.bind_eq_some_iff.1 ha
    obtain ⟨u, hu, he⟩ := Option.map_eq_some_iff.1 ha
    cases he
    refine .release ?_ hu
    unfold Loop.disposing? at hl
    split at hl <;> simp_all
  · rw [deed?_of_ne hn] at ha
    obtain ⟨⟨es, u⟩, hu, he⟩ := Option.map_eq_some_iff.1 ha
    cases he
    obtain ⟨hl, hk⟩ := act_keeps hu hn
    exact .other (step_of_act? hu) hl hk

/-- All that comes of acts one after the other. -/
def deeds? (h : Handler σ) (s : Service σ) : List Act → Option (List Deed × Service σ)
  | [] => some ([], s)
  | a :: as => do
    let (ds, t) ← s.deed? h a
    let (fs, u) ← t.deeds? h as
    return (ds ++ fs, u)

theorem Moves.append {fs : List Deed} (hr : Moves h s ds t) (hr' : Moves h t fs u) :
    Moves h s (ds ++ fs) u := by
  induction hr' with
  | refl => simpa using hr
  | tail _ hm ih => exact List.append_assoc ds _ _ ▸ ih.tail hm

theorem moves_of_deeds? {as : List Act} (ha : s.deeds? h as = some (ds, t)) : Moves h s ds t := by
  induction as generalizing s ds with
  | nil =>
    cases ha
    exact .refl
  | cons a as ih =>
    obtain ⟨⟨fs, u⟩, hu, ha⟩ := Option.bind_eq_some_iff.1 ha
    obtain ⟨⟨gs, v⟩, hv, he⟩ := Option.bind_eq_some_iff.1 ha
    cases he
    exact .append (.tail .refl (move_of_deed? hu)) (ih hv)

end Service

end Switchboard
