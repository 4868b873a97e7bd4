import Switchboard.Proofs.Server.Office
import Switchboard.Proofs.Session.Turns

/-! The fibers of a server that serves nobody but its uplink: which there are, and which of them its
service cannot do without. -/
namespace Switchboard.Server

variable {s t u : Session Agent} {v w : Service Agent} {f g : Fiber} {id k : Nat} {side : Side}
  {m : Envelope} {stage : Job.Stage}

/-- What the keeper of one side of the uplink sets going. -/
def inner : Side → Fiber
  | .reading => .linkIntake 0
  | .writing => .linkOutlet 0

/-- The fiber that keeps one side of the uplink. -/
def post : Side → Nat
  | .reading => 2
  | .writing => 3

/-- Fibers that others have set going. -/
inductive Hand : Fiber → Prop
  | inner (side : Side) : Hand (inner side)
  | dispose : Hand (.dispose 0)
  | job (k : Nat) : Hand (.job 0 k)
  | work (k : Nat) : Hand (.work 0 k)

/-- Fibers that a service cannot do without. -/
inductive Needed (v : Service Agent) : Fiber → Prop
  | dispose {route : String} (h : v.loop = .disposing route) : Needed v (.dispose 0)
  | job {k : Nat} {j : Job} (h : v.jobs[k]? = some j) (hj : j.stage ≠ .finished) :
      Needed v (.job 0 k)
  | work {k : Nat} {m : Envelope} (h : v.jobs[k]? = some ⟨m, .begun⟩) : Needed v (.work 0 k)

def Has (s : Session Agent) (f : Fiber) : Prop := ∃ id, s.fiber? id = some f

/-- The fibers of a server: those it was launched with, and the hands. -/
structure Crew (s : Session Agent) (v : Service Agent) : Prop where
  fresh : ∀ e ∈ s.fibers, e.1 < s.started
  pump : ∀ p < 2, s.fiber? (4 * p) = some (.pump 1 p)
  loop : s.fiber? 1 = some (.loop none 0 (.shutdown 1) (decide (v.loop ≠ .unused)))
  keeper : ∀ side, ∃ begun, s.fiber? (post side) = some (.watch 0 side begun) ∧
    (begun = true → Has s (inner side))
  hands : ∀ id f, 5 ≤ id → s.fiber? id = some f → Hand f
  needed : ∀ f, Needed v f → Has s f
  /-- Only the pumps listen, each to its own endpoint. -/
  lines : ∀ e ∈ s.lines, e.2 = 4 * e.1

theorem fiber?_other {j : Nat} (hf : s.fiber? id = some f) (hj : j ≠ id) (rest : Option Fiber) :
    (s.replace id rest).fiber? j = s.fiber? j := by
  rw [Session.fiber?_replace (by simp [hf]), if_neg hj]

theorem fiber?_self (hf : s.fiber? id = some f) (rest : Option Fiber) :
    (s.replace id rest).fiber? id = rest := by
  rw [Session.fiber?_replace (by simp [hf]), if_pos rfl]

/-- A fiber that goes on as it is changes nothing. -/
theorem fiber?_same (hf : s.fiber? id = some f) : (s.replace id (some f)).fiber? = s.fiber? := by
  funext j
  by_cases hj : j = id
  · rw [hj, fiber?_self hf, hf]
  · exact fiber?_other hf hj _

/-- All fibers but the one of the turn are still there. -/
theorem Has.replace (hg : Has s g) (hf : s.fiber? id = some f) (hne : f ≠ g)
    (rest : Option Fiber) : Has (s.replace id rest) g := by
  obtain ⟨j, hj⟩ := hg
  refine ⟨j, (fiber?_other hf (fun h => hne ?_) rest).trans hj⟩
  rw [h, hf] at hj
  exact Option.some.inj hj

theorem Needed.congr (hl : w.loop = v.loop) (hj : w.jobs = v.jobs) (hn : Needed w f) :
    Needed v f := by
  cases hn with
  | dispose h => exact .dispose (hl ▸ h)
  | job h hd => exact .job (hj ▸ h) hd
  | work h => exact .work (hj ▸ h)

/-- What becomes needed when a job gets to another stage. -/
theorem needed_setStage (hn : Needed (v.setStage k stage) f) :
    (f = .job 0 k ∧ stage ≠ .finished) ∨ (f = .work 0 k ∧ stage = .begun) ∨
      (Needed v f ∧ f ≠ .job 0 k ∧ f ≠ .work 0 k) := by
  have hget {i : Nat} {j : Job} (hj : (v.setStage k stage).jobs[i]? = some j) :
      (i = k ∧ j.stage = stage) ∨ (i ≠ k ∧ v.jobs[i]? = some j) := by
    simp only [Service.setStage, List.getElem?_modify, Option.map_eq_map,
      Option.map_eq_some_iff] at hj
    obtain ⟨j', hj', rfl⟩ := hj
    by_cases hi : k = i
    · exact .inl ⟨hi.symm, by simp [hi]⟩
    · exact .inr ⟨Ne.symm hi, by simp [hi, hj']⟩
  cases hn with
  | dispose h => exact .inr (.inr ⟨.dispose h, by simp, by simp⟩)
  | job h hd =>
    rcases hget h with ⟨rfl, hs⟩ | ⟨hi, hj⟩
    · exact .inl ⟨rfl, hs ▸ hd⟩
    · exact .inr (.inr ⟨.job hj hd, by simpa using hi, by simp⟩)
  | work h =>
    rcases hget h with ⟨rfl, hs⟩ | ⟨hi, hj⟩
    · exact .inr (.inl ⟨rfl, hs.symm⟩)
    · exact .inr (.inr ⟨.work hj, by simp, by simpa using hi⟩)

/-- A job after an envelope was dispatched is an old one, or it was just added. -/
theorem getElem?_dispatch {i : Nat} {j : Job} (hj : (v.dispatch m).jobs[i]? = some j) :
    v.jobs[i]? = some j ∨
      (i = v.jobs.length ∧ j.stage = .delivered ∧ v.jobs.length < (v.dispatch m).jobs.length) := by
  rw [Service.dispatch_jobs] at hj ⊢
  by_cases hi : i < v.jobs.length
  · rw [List.getElem?_append_left hi] at hj
    exact .inl hj
  · rw [List.getElem?_append_right (by omega), List.getElem?_map] at hj
    obtain ⟨n, hn, rfl⟩ := Option.map_eq_some_iff.1 hj
    have hlen := (List.getElem?_eq_some_iff.1 hn).1
    have hone := List.length_filter_le (·.isWork) [m]
    simp only [List.length_singleton] at hone
    refine .inr ⟨by omega, rfl, ?_⟩
    rw [List.length_append, List.length_map]
    omega

/-- What becomes needed when the loop takes a step. -/
theorem needed_receive (hs : v.Sound) (ht : v.receive? = some w) (hn : Needed w f) :
    Needed v f ∨ (f = .dispose 0 ∧ ∃ route, w.loop = .disposing route) ∨
      (f = .job 0 v.jobs.length ∧ v.jobs.length < w.jobs.length) := by
  rcases Service.receive_cases ht with ⟨m, rest, -, -, rfl⟩ | ⟨-, -, he, -⟩ | ⟨-, rfl⟩
  · cases hn with
    | dispose h => exact .inr (.inl ⟨rfl, _, h⟩)
    | job h hd =>
      rcases getElem?_dispatch h with hj | ⟨rfl, -, hlt⟩
      · exact .inl (.job hj hd)
      · exact .inr (.inr ⟨rfl, hlt⟩)
    | work h =>
      rcases getElem?_dispatch h with hj | ⟨-, hstage, -⟩
      · exact .inl (.work hj)
      · cases hstage
  · rw [hs.input] at he
    cases he
  · cases hn with
    | dispose h => cases h
    | job h hd => exact .inl (.job h hd)
    | work h => exact .inl (.work h)

namespace Crew

theorem lt_started (hc : Crew s v) (hf : s.fiber? id = some f) : id < s.started :=
  hc.fresh _ (Session.mem_fibers hf)

/-- Only fibers and lines matter. -/
theorem congr (hc : Crew s v) (hf : u.fiber? = s.fiber?) (hfresh : ∀ e ∈ u.fibers, e.1 < u.started)
    (hl : ∀ e ∈ u.lines, e.2 = 4 * e.1) : Crew u v where
  fresh := hfresh
  pump := hf ▸ hc.pump
  loop := hf ▸ hc.loop
  keeper side := by
    obtain ⟨begun, hb, hhas⟩ := hc.keeper side
    exact ⟨begun, hf ▸ hb, fun h => by simpa [Has, hf] using hhas h⟩
  hands := hf ▸ hc.hands
  needed f hn := by simpa [Has, hf] using hc.needed f hn
  lines := hl

theorem fresh_replace (hc : Crew s v) (hf : s.fiber? id = some f) (rest : Option Fiber) :
    ∀ e ∈ (s.replace id rest).fibers, e.1 < (s.replace id rest).started := by
  have hid := hc.lt_started hf
  cases rest with
  | none => exact fun e he => hc.fresh e (List.mem_of_mem_filter he)
  | some g =>
    intro e he
    obtain ⟨e', he', rfl⟩ := List.mem_map.1 he
    split
    · exact hid
    · exact hc.fresh e' he'

theorem replace_self (hc : Crew s v) (hf : s.fiber? id = some f) :
    Crew (s.replace id (some f)) v :=
  hc.congr (fiber?_same hf) (hc.fresh_replace hf _) hc.lines

theorem fiber?_hire (hc : Crew s v) (g : Fiber) (hf : s.fiber? id = some f) :
    (s.spawn g).fiber? id = some f := by
  have hlt := hc.lt_started hf
  rw [Session.fiber?_spawn hc.fresh, if_neg (by omega), hf]

theorem has_hire (hc : Crew s v) (g : Fiber) (hf : Has s f) : Has (s.spawn g) f := by
  obtain ⟨id, hf⟩ := hf
  exact ⟨id, hc.fiber?_hire g hf⟩

theorem has_hired (hc : Crew s v) (g : Fiber) : Has (s.spawn g) g :=
  ⟨s.started, by rw [Session.fiber?_spawn hc.fresh, if_pos rfl]⟩

/-- A new hand. -/
theorem hire (hc : Crew s v) (hg : Hand g) : Crew (s.spawn g) v where
  fresh e he := by
    rcases List.mem_append.1 he with he | he
    · exact Nat.lt_succ_of_lt (hc.fresh e he)
    · rw [List.mem_singleton.1 he]
      exact Nat.lt_succ_self _
  pump p hp := hc.fiber?_hire g (hc.pump p hp)
  loop := hc.fiber?_hire g hc.loop
  keeper side := by
    obtain ⟨begun, hb, hhas⟩ := hc.keeper side
    exact ⟨begun, hc.fiber?_hire g hb, fun h => hc.has_hire g (hhas h)⟩
  hands id f hid hf := by
    rw [Session.fiber?_spawn hc.fresh] at hf
    split at hf
    · cases hf
      exact hg
    · exact hc.hands id f hid hf
  needed f hn := hc.has_hire g (hc.needed f hn)
  lines := hc.lines

/-- A hand that is no longer needed goes. -/
theorem dismiss (hc : Crew s v) (hid : 5 ≤ id) (hf : s.fiber? id = some f) (hn : ¬ Needed v f)
    (hi : ∀ side, f ≠ inner side) : Crew (s.replace id none) v where
  fresh := hc.fresh_replace hf _
  pump p hp := (fiber?_other hf (by omega) _).trans (hc.pump p hp)
  loop := (fiber?_other hf (by omega) _).trans hc.loop
  keeper side := by
    obtain ⟨begun, hb, hinner⟩ := hc.keeper side
    have hpost : post side ≠ id := by cases side <;> simp only [post] <;> omega
    exact ⟨begun, (fiber?_other hf hpost _).trans hb, fun h => (hinner h).replace hf (hi side) _⟩
  hands j g hj hg := by
    by_cases h : j = id
    · rw [h, fiber?_self hf] at hg
      cases hg
    · exact hc.hands j g hj ((fiber?_other hf h _).symm.trans hg)
  needed g hg := (hc.needed g hg).replace hf (fun h => hn (h ▸ hg)) _
  lines := hc.lines

/-- The service may change as long as nobody is missing for it. -/
theorem serve (hc : Crew s v) (hl : v.loop = .unused ↔ w.loop = .unused)
    (hn : ∀ f, Needed w f → Has s f) : Crew s w :=
  { hc with
    loop := by simpa only [ne_eq, ← hl] using hc.loop
    needed := hn }

/-- The loop is started. -/
theorem startLoop (hc : Crew s v) (hw : w.loop ≠ .unused) (hn : ∀ f, Needed w f → Needed v f) :
    Crew (s.replace 1 (some (.loop none 0 (.shutdown 1) true))) w where
  fresh := hc.fresh_replace hc.loop _
  pump p hp := (fiber?_other hc.loop (by omega) _).trans (hc.pump p hp)
  loop := by
    rw [fiber?_self hc.loop]
    simp [hw]
  keeper side := by
    obtain ⟨begun, hb, hinner⟩ := hc.keeper side
    have hpost : post side ≠ 1 := by cases side <;> decide
    exact ⟨begun, (fiber?_other hc.loop hpost _).trans hb,
      fun h => (hinner h).replace hc.loop (by cases side <;> simp [inner]) _⟩
  hands j g hj hg := hc.hands j g hj ((fiber?_other hc.loop (by omega) _).symm.trans hg)
  needed g hg := (hc.needed g (hn g hg)).replace hc.loop (by cases hg <;> simp) _
  lines := hc.lines

/-- A keeper of the uplink sets its side going. -/
theorem startSide (hc : Crew s v) (side : Side) :
    Crew ((s.spawn (inner side)).replace (post side) (some (.watch 0 side true))) v := by
  have hc' := hc.hire (Hand.inner side)
  obtain ⟨b, hb, -⟩ := hc'.keeper side
  have hpost : post side = 2 ∨ post side = 3 := by cases side <;> simp [post]
  have hinner (side' : Side) : (.watch 0 side b : Fiber) ≠ inner side' := by
    cases side' <;> simp [inner]
  refine ⟨hc'.fresh_replace hb _, fun p hp => (fiber?_other hb (by omega) _).trans (hc'.pump p hp),
    (fiber?_other hb (by omega) _).trans hc'.loop, fun side' => ?_,
    fun j g hj hg => hc'.hands j g hj ((fiber?_other hb (by omega) _).symm.trans hg),
    fun g hg => (hc'.needed g hg).replace hb (by cases hg <;> simp) _, hc'.lines⟩
  by_cases hside : side' = side
  · subst hside
    exact ⟨true, fiber?_self hb _, fun _ => (hc.has_hired _).replace hb (hinner side') _⟩
  · obtain ⟨begun, hb', hinner'⟩ := hc'.keeper side'
    have hne : post side' ≠ post side := by cases side <;> cases side' <;> simp_all [post]
    exact ⟨begun, (fiber?_other hb hne _).trans hb',
      fun h => (hinner' h).replace hb (hinner side') _⟩

end Crew

end Switchboard.Server
