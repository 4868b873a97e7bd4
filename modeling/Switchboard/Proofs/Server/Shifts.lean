import Switchboard.Proofs.Server.Crew
import Switchboard.Proofs.Server.Load

/-! What a turn of a fiber means to a server that serves nobody but its uplink: it is a step of one
of the parties, or the fiber gets ready for one. -/
namespace Switchboard.Server

open Session (AtRest Turn Turns)

variable {s t u : Session Agent} {v w : Service Agent} {o p : Office} {f : Fiber} {id k n : Nat}
  {rest : Option Fiber}

/-- A session with the parts of an office in their places. -/
def Office.place (o : Office) (s : Session Agent) : Session Agent :=
  { s with
    routers := [{}, o.router]
    endpoints := o.endpoints
    minted := o.minted
    links := [(1, o.link)] }

/-- The parts of a session are those of an office, and its shutdown has not been triggered. -/
structure Shows (s : Session Agent) (o : Office) : Prop where
  routers : s.routers = [{}, o.router]
  router : s.router = 1
  shutdowns : s.shutdowns = [{}, {}]
  endpoints : s.endpoints = o.endpoints
  minted : s.minted = o.minted
  links : s.links = [(1, o.link)]

/-- A session that is a server which serves nobody but its uplink. -/
structure Serves (s : Session Agent) (o : Office) : Prop where
  shows : Shows s o
  crew : Crew s o.service
  sound : o.Sound

namespace Shows

theorem place (hs : Shows s o) (p : Office) : Shows (p.place s) p :=
  ⟨rfl, hs.router, hs.shutdowns, rfl, rfl, rfl⟩

theorem spawn (hs : Shows s o) (f : Fiber) : Shows (s.spawn f) o :=
  ⟨hs.routers, hs.router, hs.shutdowns, hs.endpoints, hs.minted, hs.links⟩

theorem replace (hs : Shows s o) (id : Nat) (rest : Option Fiber) :
    Shows (s.replace id rest) o := by
  cases rest <;> exact ⟨hs.routers, hs.router, hs.shutdowns, hs.endpoints, hs.minted, hs.links⟩

theorem queue (hs : Shows s o) (lines : List (Nat × Nat)) : Shows { s with lines } o :=
  ⟨hs.routers, hs.router, hs.shutdowns, hs.endpoints, hs.minted, hs.links⟩

theorem exchange_eq (hs : Shows s o) : s.exchange 1 = o.exchange := by
  simp [Session.exchange, hs.routers, hs.endpoints, hs.minted, Office.exchange]

theorem put_eq (hs : Shows s o) (hl : p.link = o.link) : s.put 1 p.exchange = p.place s := by
  simp [Session.put, hs.routers, hs.links, hl, Office.exchange, Office.place, Office.router]

theorem onLink_eq (hs : Shows s o)
    {act : Link → Exchange Agent → Option (Exchange Agent × Link)}
    (ha : act o.link o.exchange = some (p.exchange, p.link)) :
    s.onLink 0 act = some (p.place s) := by
  simp only [Session.onLink, hs.links, hs.router, List.getElem?_cons_zero, hs.exchange_eq, ha,
    Option.map_some]
  simp [Session.put, hs.routers, Office.exchange, Office.place, Office.router]

theorem onLink_none (hs : Shows s o)
    {act : Link → Exchange Agent → Option (Exchange Agent × Link)}
    (ha : act o.link o.exchange = none) : s.onLink 0 act = none := by
  simp only [Session.onLink, hs.links, hs.router, List.getElem?_cons_zero, hs.exchange_eq, ha,
    Option.map_none]

theorem link?_eq (hs : Shows s o) : s.links[0]? = some (1, o.link) := by simp [hs.links]

theorem stepLinkIntake_eq (hs : Shows s o) : s.stepLinkIntake 0
    = (s.onLink 0 fun l x => l.read? x).map (·, some (.linkIntake 0)) := by
  rw [Session.stepLinkIntake, hs.link?_eq]
  rfl

theorem stepLinkOutlet_eq (hs : Shows s o) : s.stepLinkOutlet 0
    = (s.onLink 0 fun l x => l.write? x false).map (·, some (.linkOutlet 0)) := by
  have hshutdown : (s.shutdownAt 1).triggered = false := by
    simp [Session.shutdownAt, hs.shutdowns]
  rw [Session.stepLinkOutlet, hs.link?_eq]
  simp only [Office.link, hshutdown]

theorem service?_eq (hs : Shows s o) : s.service? 0 = some o.service := by
  simp [Session.service?, hs.endpoints, Office.endpoints, Endpoint.service?]

theorem setService_eq (hs : Shows s o) (v : Service Agent) :
    s.setService 0 v = { o with service := v }.place s := by
  obtain ⟨hr, -, -, he, hm, hl⟩ := hs
  cases s
  cases hr
  cases he
  cases hm
  cases hl
  rfl

end Shows

/-- A pump that is in line is the first, as no other listens to its endpoint. -/
theorem isFirst_of_mem (hl : ∀ e ∈ s.lines, e.2 = 4 * e.1) (hmem : (n, 4 * n) ∈ s.lines) :
    s.isFirst (4 * n) n = true := by
  have hsome : (s.lines.find? (·.1 = n)).isSome := List.find?_isSome.2 ⟨_, hmem, by simp⟩
  obtain ⟨e, he⟩ := Option.isSome_iff_exists.1 hsome
  have hn : e.1 = n := by simpa using List.find?_some he
  have : e = (n, 4 * n) := Prod.ext hn (hn ▸ hl e (List.mem_of_find?_eq_some he))
  simp [Session.isFirst, he, this]

/-- What a pump does by its next turn: it gets in line, and then it fetches and routes by turns. -/
theorem stepPump_eq (hs : Shows s o) (hn : n < 2) (hl : ∀ e ∈ s.lines, e.2 = 4 * e.1) :
    s.stepPump (4 * n) 1 n =
      if (o.holds n).isSome then some (s.put 1 (o.exchange.forward n).1, some (.pump 1 n))
      else if (n, 4 * n) ∈ s.lines then
        match o.exchange.fetch n with
        | .held x => some ((s.put 1 x).leave (4 * n), some (.pump 1 n))
        | .nothing => none
        | .finished => some (s.leave (4 * n), none)
      else some ({ s with lines := s.lines ++ [(n, 4 * n)] }, some (.pump 1 n)) := by
  obtain ⟨source, hpump⟩ : ∃ source, (s.exchange 1).router.pumps[n]?
      = some { source, endpoint := n, held := o.holds n } := by
    rw [hs.exchange_eq]
    obtain rfl | rfl : n = 0 ∨ n = 1 := by omega
    · exact ⟨_, rfl⟩
    · exact ⟨_, rfl⟩
  have halive : s.isAlive 1 = true := by simp [Session.isAlive, hs.router]
  unfold Session.stepPump
  rw [hpump]
  simp only [halive, if_true, Bool.false_eq_true, if_false, Session.lend, hs.exchange_eq,
    Session.inLine]
  cases o.holds n with
  | some m => rfl
  | none =>
    by_cases hmem : (n, 4 * n) ∈ s.lines
    · have hcontains : s.lines.contains (n, 4 * n) = true := List.contains_iff_mem.2 hmem
      simp only [hcontains, hmem, isFirst_of_mem hl hmem, Bool.not_true, if_true, Option.isSome_none,
        Bool.false_eq_true, if_false]
      cases o.exchange.fetch n <;> rfl
    · have hcontains : s.lines.contains (n, 4 * n) = false := by simpa using hmem
      simp only [hcontains, hmem, Bool.not_false, if_true, Option.isSome_none, Bool.false_eq_true,
        if_false]

/-- What a fiber still does by itself that is no step of a party. -/
def waits : Option Fiber → Nat
  | some (.watch _ _ false) => 2
  | _ => 0

/-- The turns of fibers that get ready for their work, or have done with it. -/
def rank (s : Session Agent) : Nat :=
  s.fibers.length + (if (0, 0) ∈ s.lines then 0 else 1) + (if (1, 4) ∈ s.lines then 0 else 1)
    + waits (s.fiber? (post .reading)) + waits (s.fiber? (post .writing))

/-- A turn comes to a step of a party, or else to nothing but a lower rank. -/
def Advances (s : Session Agent) (o : Office) (u : Session Agent) : Prop :=
  ∃ p, Serves u p ∧ (o.Step p ∨ p = o ∧ rank u < rank s)

theorem rank_same (hf : s.fiber? id = some f) : rank (s.replace id (some f)) = rank s := by
  have hlength : (s.replace id (some f)).fibers.length = s.fibers.length := List.length_map ..
  rw [rank, fiber?_same hf, hlength]
  rfl

theorem receive_loop (hs : v.Sound) (hw : v.receive? = some w) :
    w.loop = .running ∨ ∃ route, w.loop = .disposing route := by
  rcases Service.receive_cases hw with ⟨m, q, hl, -, rfl⟩ | ⟨-, -, he, -⟩ | ⟨-, rfl⟩
  · rcases Service.dispatch_loop { v with input := { v.input with items := q } } m with hd | hd
    · exact .inl (hd.trans hl)
    · exact .inr hd
  · rw [hs.input] at he
    cases he
  · exact .inl rfl

theorem answer_crew (hw : v.answer? k = some w) :
    w.loop = v.loop ∧ w.jobs = (v.setStage k .finished).jobs := by
  obtain ⟨m, outcome, -, rfl⟩ := Service.answer_cases hw
  split
  · obtain ⟨q, he⟩ := Service.exists_emit_eq (v.setStage k .finished)
      { Service.responseTo m outcome with source := some (v.setStage k .finished).route }
    rw [Service.respondWith, he]
    exact ⟨rfl, rfl⟩
  · exact ⟨rfl, rfl⟩

namespace Serves

theorem crew_place (hs : Serves s o) (p : Office) : Crew (p.place s) o.service :=
  hs.crew.congr rfl hs.crew.fresh hs.crew.lines

theorem leave (hs : Serves s o) (id : Nat) : Serves (s.leave id) o where
  shows := hs.shows.queue _
  crew := hs.crew.congr rfl hs.crew.fresh fun e he => hs.crew.lines e (List.mem_of_mem_filter he)
  sound := hs.sound

/-- A party takes a step in the turn of a fiber that goes on as it is. -/
theorem keep (hs : Serves s o) (hf : s.fiber? id = some f) (hst : o.Step p)
    (hl : p.service.loop = o.service.loop) (hj : p.service.jobs = o.service.jobs) :
    Serves ((p.place s).replace id (some f)) p where
  shows := (hs.shows.place p).replace _ _
  crew := by
    have hcrew : Crew (p.place s) p.service :=
      (hs.crew_place p).serve (by rw [hl]) fun g hg => (hs.crew_place p).needed g (hg.congr hl hj)
    exact hcrew.replace_self hf
  sound := hs.sound.step hst

/-- A pump gets in line. -/
theorem lineUp (hs : Serves s o) (hn : n < 2) (hf : s.fiber? id = some f)
    (hmem : (n, 4 * n) ∉ s.lines) :
    Advances s o (Session.replace { s with lines := s.lines ++ [(n, 4 * n)] } id (some f)) := by
  have hlines : ∀ e ∈ s.lines ++ [(n, 4 * n)], e.2 = 4 * e.1 := by
    intro e he
    rcases List.mem_append.1 he with he | he
    · exact hs.crew.lines e he
    · rw [List.mem_singleton.1 he]
  have hcrew : Crew { s with lines := s.lines ++ [(n, 4 * n)] } o.service :=
    hs.crew.congr rfl hs.crew.fresh hlines
  refine ⟨o, ⟨(hs.shows.queue _).replace _ _, hcrew.replace_self hf, hs.sound⟩, .inr ⟨rfl, ?_⟩⟩
  rw [rank_same (s := { s with lines := s.lines ++ [(n, 4 * n)] }) hf]
  show s.fibers.length + _ + _ + waits (s.fiber? (post .reading))
    + waits (s.fiber? (post .writing)) < rank s
  obtain rfl | rfl : n = 0 ∨ n = 1 := by omega
  · simp [rank, show (0, 0) ∉ s.lines from hmem]
  · simp [rank, show (1, 4) ∉ s.lines from hmem]

theorem pump (hs : Serves s o) (hn : n < 2) (hst : s.stepPump (4 * n) 1 n = some (t, rest)) :
    Advances s o (t.replace (4 * n) rest) := by
  have hf := hs.crew.pump n hn
  rw [stepPump_eq hs.shows hn hs.crew.lines] at hst
  by_cases hheld : (o.holds n).isSome
  · obtain ⟨p, hp, hb, hx⟩ := Office.forward_step hs.sound hn hheld
    rw [if_pos hheld, hx, hs.shows.put_eq hb.link] at hst
    cases hst
    exact ⟨p, hs.keep hf hp hb.loop hb.jobs, .inl hp⟩
  · rw [if_neg hheld] at hst
    by_cases hmem : (n, 4 * n) ∈ s.lines
    · rw [if_pos hmem] at hst
      rcases Office.fetch_step hs.sound hn (by simpa using hheld) with
        ⟨-, hx⟩ | ⟨p, hp, hb, hx⟩
      · rw [hx] at hst
        cases hst
      · rw [hx] at hst
        cases hst
        rw [hs.shows.put_eq hb.link]
        exact ⟨p, (hs.leave (4 * n)).keep hf hp hb.loop hb.jobs, .inl hp⟩
    · rw [if_neg hmem] at hst
      cases hst
      exact hs.lineUp hn hf hmem

/-- The side of a stream that a keeper sets going, or the keeper waits. -/
theorem watch (hs : Serves s o) {side : Side} {begun : Bool}
    (hf : s.fiber? (post side) = some (.watch 0 side begun))
    (hst : s.stepWatch 0 side begun = some (t, rest)) :
    Advances s o (t.replace (post side) rest) := by
  cases begun with
  | false =>
    have hspawn : some (s.spawn (inner side), some (.watch 0 side true)) = some (t, rest) := by
      cases side <;> exact hst
    cases hspawn
    refine ⟨o, ⟨(hs.shows.spawn _).replace _ _, hs.crew.startSide side, hs.sound⟩, .inr ⟨rfl, ?_⟩⟩
    have hf' := hs.crew.fiber?_hire (inner side) hf
    have hself := fiber?_self hf' (some (.watch 0 side true))
    have hother (side' : Side) (hne : post side' ≠ post side) :
        ((s.spawn (inner side)).replace (post side) (some (.watch 0 side true))).fiber? (post side')
          = s.fiber? (post side') := by
      obtain ⟨b, hb, -⟩ := hs.crew.keeper side'
      rw [fiber?_other hf' hne, hs.crew.fiber?_hire _ hb, hb]
    have hlength : ((s.spawn (inner side)).replace (post side)
        (some (.watch 0 side true))).fibers.length = s.fibers.length + 1 := by
      simp [Session.replace, Session.spawn]
    have hlines : ((s.spawn (inner side)).replace (post side)
        (some (.watch 0 side true))).lines = s.lines := rfl
    cases side with
    | reading =>
      simp only [rank, hlength, hlines, hself, hother .writing (by decide), hf, waits]
      omega
    | writing =>
      simp only [rank, hlength, hlines, hself, hother .reading (by decide), hf, waits]
      omega
  | true => cases side <;> simp [Session.stepWatch, hs.shows.link?_eq, Office.link] at hst

theorem intake (hs : Serves s o) (hf : s.fiber? id = some (.linkIntake 0))
    (hst : s.stepLinkIntake 0 = some (t, rest)) : Advances s o (t.replace id rest) := by
  rw [hs.shows.stepLinkIntake_eq] at hst
  rcases o.read_step with ⟨-, -, hread⟩ | ⟨p, hp, hv, hread⟩
  · rw [hs.shows.onLink_none hread] at hst
    cases hst
  · rw [hs.shows.onLink_eq hread] at hst
    cases hst
    exact ⟨p, hs.keep hf hp (by rw [hv]) (by rw [hv]), .inl hp⟩

theorem outlet (hs : Serves s o) (hf : s.fiber? id = some (.linkOutlet 0))
    (hst : s.stepLinkOutlet 0 = some (t, rest)) : Advances s o (t.replace id rest) := by
  rw [hs.shows.stepLinkOutlet_eq] at hst
  rcases o.write_step with ⟨-, hwrite⟩ | ⟨p, hp, hv, hwrite⟩
  · rw [hs.shows.onLink_none hwrite] at hst
    cases hst
  · rw [hs.shows.onLink_eq hwrite] at hst
    cases hst
    exact ⟨p, hs.keep hf hp (by rw [hv]) (by rw [hv]), .inl hp⟩

/-- A session in which the service has taken a step, and nobody is missing. -/
theorem served {es : List Service.Event} (hs : Serves s o)
    (hp : Service.Progress Agent.handler o.service es v) (hu : Shows u { o with service := v })
    (hc : Crew u v) : Advances s o u :=
  ⟨_, ⟨hu, hc, hs.sound.step (.serve hp)⟩, .inl (.serve hp)⟩

theorem loop_iff {es : List Service.Event} (hs : Serves s o)
    (hp : Service.Progress Agent.handler o.service es v) (hu : o.service.loop ≠ .unused) :
    o.service.loop = .unused ↔ v.loop = .unused :=
  ⟨fun h => absurd h hu, fun h => absurd h (hp.loop_ne hs.sound.service hu)⟩

theorem startLoop (hs : Serves s o) (hu : o.service.loop = .unused)
    (hst : s.stepLoop none 0 (.shutdown 1) false = some (t, rest)) :
    Advances s o (t.replace 1 rest) := by
  have hstart : o.service.start = .ok { o.service with loop := .running } := by
    rw [Service.start, hu]
  simp only [Session.stepLoop, hs.shows.service?_eq, hstart, Bool.not_false, if_true] at hst
  cases hst
  rw [hs.shows.setService_eq]
  refine ⟨_, ⟨(hs.shows.place _).replace _ _, (hs.crew_place _).startLoop (by simp) ?_,
    hs.sound.step (.start hstart)⟩, .inl (.start hstart)⟩
  intro f hn
  cases hn with
  | dispose h => cases h
  | job h hd => exact .job h hd
  | work h => exact .work h

/-- The loop has taken a step, and what it leaves to others has been set going. -/
theorem received (hs : Serves s o) (hu : o.service.loop ≠ .unused)
    (hw : o.service.receive? = some w) (hshows : Shows u { o with service := w })
    (hcrew : Crew u o.service) (hd : (∃ route, w.loop = .disposing route) → Has u (.dispose 0))
    (hj : o.service.jobs.length < w.jobs.length → Has u (.job 0 o.service.jobs.length)) :
    Advances s o (u.replace 1 (some (.loop none 0 (.shutdown 1) true))) := by
  have hp : Service.Progress Agent.handler o.service o.service.receptions w := .receive hw
  have hall : Crew u w := by
    refine hcrew.serve (hs.loop_iff hp hu) fun f hn => ?_
    rcases needed_receive hs.sound.service hw hn with hn | ⟨rfl, hdisposing⟩ | ⟨rfl, hlt⟩
    · exact hcrew.needed f hn
    · exact hd hdisposing
    · exact hj hlt
  have hloop : u.fiber? 1 = some (.loop none 0 (.shutdown 1) true) := by
    simpa [hp.loop_ne hs.sound.service hu] using hall.loop
  exact hs.served hp (hshows.replace _ _) (hall.replace_self hloop)

/-- The loop goes on, and sets going what it leaves to others. -/
theorem receive (hs : Serves s o) (hu : o.service.loop ≠ .unused)
    (hst : s.stepLoop none 0 (.shutdown 1) true = some (t, rest)) :
    Advances s o (t.replace 1 rest) := by
  have hshutdown : s.isFired (.shutdown 1) = false := by
    simp [Session.isFired, Session.shutdownAt, hs.shows.shutdowns]
  simp only [Session.stepLoop, hs.shows.service?_eq, hs.sound.service.loop, hshutdown,
    Bool.not_true, Bool.false_eq_true, Bool.and_false, if_false] at hst
  obtain ⟨w, hw, ht⟩ := Option.map_eq_some_iff.1 hst
  rw [hs.shows.setService_eq] at ht
  have hshows := hs.shows.place { o with service := w }
  have hcrew := hs.crew_place { o with service := w }
  -- first a disposal gets its hand, then a job does
  obtain ⟨s₁, hshows₁, hcrew₁, hd, ht⟩ : ∃ s₁, Shows s₁ { o with service := w } ∧
      Crew s₁ o.service ∧ ((∃ route, w.loop = .disposing route) → Has s₁ (.dispose 0)) ∧
      (if o.service.jobs.length < w.jobs.length then s₁.spawn (.job 0 o.service.jobs.length)
        else s₁, some (.loop none 0 (.shutdown 1) true)) = (t, rest) := by
    rcases receive_loop hs.sound.service hw with hl | ⟨route, hl⟩
    · simp only [hl] at ht
      exact ⟨_, hshows, hcrew, by simp [hl], ht⟩
    · simp only [hl] at ht
      exact ⟨_, hshows.spawn _, hcrew.hire .dispose, fun _ => hcrew.has_hired _, ht⟩
  by_cases hlt : o.service.jobs.length < w.jobs.length
  · rw [if_pos hlt] at ht
    cases ht
    exact hs.received hu hw (hshows₁.spawn _) (hcrew₁.hire (.job _))
      (fun h => hcrew₁.has_hire _ (hd h)) fun _ => hcrew₁.has_hired _
  · rw [if_neg hlt] at ht
    cases ht
    exact hs.received hu hw hshows₁ hcrew₁ hd fun h => absurd h hlt

theorem dispose (hs : Serves s o) (hid : 5 ≤ id) (hf : s.fiber? id = some (.dispose 0))
    (hst : Session.stepDispose Agent.handler s 0 = some (t, rest)) :
    Advances s o (t.replace id rest) := by
  simp only [Session.stepDispose, hs.shows.service?_eq] at hst
  obtain ⟨w, hw, ht⟩ := Option.map_eq_some_iff.1 hst
  cases ht
  have hp : Service.Progress Agent.handler o.service [] w := .dispose hw
  obtain ⟨route, hl, he⟩ := Service.dispose_cases hw
  have hloop : w.loop = .disposed := by rw [he]
  have hjobs : w.jobs = o.service.jobs := by rw [he]
  rw [hs.shows.setService_eq]
  refine hs.served hp ((hs.shows.place _).replace _ _) ?_
  have hcrew : Crew (Office.place { o with service := w } s) w := by
    refine (hs.crew_place _).serve (hs.loop_iff hp (by simp [hl])) fun f hn => ?_
    cases hn with
    | dispose h =>
      rw [hloop] at h
      cases h
    | job h hd => exact hs.crew.needed _ (.job (hjobs ▸ h) hd)
    | work h => exact hs.crew.needed _ (.work (hjobs ▸ h))
  refine hcrew.dismiss hid hf (fun hn => ?_) fun side => by cases side <;> simp [inner]
  cases hn with
  | dispose h =>
    rw [hloop] at h
    cases h

theorem job (hs : Serves s o) (hid : 5 ≤ id) (hf : s.fiber? id = some (.job 0 k))
    (hst : s.stepJob 0 k = some (t, rest)) : Advances s o (t.replace id rest) := by
  simp only [Session.stepJob, hs.shows.service?_eq] at hst
  have hcrew (w : Service Agent) := hs.crew_place { o with service := w }
  cases hb : o.service.begin? k with
  | some w =>
    rw [hb] at hst
    cases hst
    obtain ⟨m, hj, rfl⟩ := Service.begin_cases hb
    have hp : Service.Progress Agent.handler o.service [] _ := .begin k hb
    rw [hs.shows.setService_eq]
    have hf' := (hcrew (o.service.setStage k .begun)).fiber?_hire (.work 0 k) hf
    have hall : Crew ((Office.place { o with service := o.service.setStage k .begun } s).spawn
        (.work 0 k)) (o.service.setStage k .begun) := by
      refine ((hcrew _).hire (.work k)).serve Iff.rfl fun f hn => ?_
      rcases needed_setStage hn with ⟨rfl, -⟩ | ⟨rfl, -⟩ | ⟨hn, -⟩
      · exact (hcrew _).has_hire _ (hs.crew.needed _ (.job hj (by simp)))
      · exact (hcrew _).has_hired _
      · exact (hcrew _).has_hire _ (hs.crew.needed _ hn)
    exact hs.served hp (((hs.shows.place _).spawn _).replace _ _) (hall.replace_self hf')
  | none =>
    rw [hb] at hst
    obtain ⟨w, hw, ht⟩ := Option.map_eq_some_iff.1 hst
    cases ht
    have hp : Service.Progress Agent.handler o.service (o.service.settlements k) w := .answer k hw
    obtain ⟨hl, hj⟩ := answer_crew hw
    have hn (f : Fiber) (hn : Needed w f) : Needed o.service f ∧ f ≠ .job 0 k := by
      rcases needed_setStage (hn.congr (v := o.service.setStage k .finished) hl hj) with
        ⟨-, h⟩ | ⟨-, h⟩ | ⟨hn, hne, -⟩
      · exact absurd rfl h
      · cases h
      · exact ⟨hn, hne⟩
    have hall : Crew (Office.place { o with service := w } s) w :=
      (hcrew w).serve (by rw [hl]) fun f h => hs.crew.needed f (hn f h).1
    rw [hs.shows.setService_eq]
    exact hs.served hp ((hs.shows.place _).replace _ _)
      (hall.dismiss hid hf (fun h => (hn _ h).2 rfl) fun side => by cases side <;> simp [inner])

/-- A hand whose work is done goes. -/
theorem workDone (hs : Serves s o) (hid : 5 ≤ id) (hf : s.fiber? id = some (.work 0 k))
    (hn : ¬ Needed o.service (.work 0 k)) : Advances s o (s.replace id none) := by
  have hcrew := hs.crew.dismiss hid hf hn fun side => by cases side <;> simp [inner]
  refine ⟨o, ⟨hs.shows.replace _ _, hcrew, hs.sound⟩, .inr ⟨rfl, ?_⟩⟩
  have hlength : (s.replace id none).fibers.length < s.fibers.length :=
    List.length_filter_lt_length_iff_exists.2 ⟨_, Session.mem_fibers hf, by simp⟩
  have hside (side : Side) : (s.replace id none).fiber? (post side) = s.fiber? (post side) :=
    fiber?_other hf (by cases side <;> simp only [post] <;> omega) _
  have hlines : (s.replace id none).lines = s.lines := rfl
  simp only [rank, hside, hlines]
  omega

theorem work (hs : Serves s o) (hid : 5 ≤ id) (hf : s.fiber? id = some (.work 0 k))
    (hst : Session.stepWork Agent.handler s 0 k = some (t, rest)) :
    Advances s o (t.replace id rest) := by
  simp only [Session.stepWork, hs.shows.service?_eq] at hst
  split at hst
  · rename_i hj
    cases hst
    refine hs.workDone hid hf fun hn => ?_
    cases hn with
    | work h =>
      rw [hj] at h
      cases h
  · obtain ⟨w, hw, ht⟩ := Option.map_eq_some_iff.1 hst
    cases ht
    have hp : Service.Progress Agent.handler o.service _ w := .work s.clock k hw
    obtain ⟨j, state, outcome, hj, hstage, he⟩ := work_agent hw
    have hloop : w.loop = o.service.loop := by rw [he]; rfl
    have hjobs : w.jobs = (o.service.setStage k (.worked outcome)).jobs := by rw [he]; rfl
    have hall : Crew (Office.place { o with service := w } s) w := by
      refine (hs.crew_place _).serve (by rw [hloop]) fun f hn => hs.crew.needed f ?_
      rcases needed_setStage (hn.congr (v := o.service.setStage k (.worked outcome)) hloop hjobs)
        with ⟨rfl, -⟩ | ⟨-, h⟩ | ⟨hn, -⟩
      · exact .job hj hstage
      · cases h
      · exact hn
    rw [hs.shows.setService_eq]
    exact hs.served hp ((hs.shows.place _).replace _ _) (hall.replace_self hf)

/-- Every turn is a step of one of the parties, or a fiber gets ready for one or is done. -/
theorem turn (hs : Serves s o) (hf : s.fiber? id = some f)
    (hst : s.step? Agent.handler id f = some (t, rest)) : Advances s o (t.replace id rest) := by
  by_cases hid : 5 ≤ id
  · cases hs.crew.hands id f hid hf with
    | inner side =>
      cases side with
      | reading => exact hs.intake hf hst
      | writing => exact hs.outlet hf hst
    | dispose => exact hs.dispose hid hf hst
    | job k => exact hs.job hid hf hst
    | work k => exact hs.work hid hf hst
  · have hpump {n : Nat} (hn : n < 2) (h : id = 4 * n) : Advances s o (t.replace id rest) := by
      subst h
      rw [hs.crew.pump n hn] at hf
      cases hf
      exact hs.pump hn hst
    have hwatch (side : Side) (h : id = post side) : Advances s o (t.replace id rest) := by
      subst h
      obtain ⟨begun, hb, -⟩ := hs.crew.keeper side
      rw [hb] at hf
      cases hf
      exact hs.watch hb hst
    obtain h | h | h | h | h : id = 0 ∨ id = 1 ∨ id = 2 ∨ id = 3 ∨ id = 4 := by omega
    · exact hpump (n := 0) (by decide) h
    · subst h
      rw [hs.crew.loop] at hf
      cases hf
      replace hst : s.stepLoop none 0 (.shutdown 1) (decide (o.service.loop ≠ .unused))
        = some (t, rest) := hst
      by_cases hu : o.service.loop = .unused
      · exact hs.startLoop hu (by simpa [hu] using hst)
      · exact hs.receive hu (by simpa [hu] using hst)
    · exact hwatch .reading h
    · exact hwatch .writing h
    · exact hpump (n := 1) (by decide) h

end Serves

end Switchboard.Server
