import Switchboard.Proofs.Service.Run

/-! The steps at a service as acts that can be played. -/
namespace Switchboard.Service

variable {σ : Type} {h : Handler σ} {s t : Service σ} {es : List Event}

/-- Something that somebody does at a service. -/
inductive Act where
  | deliver (m : Envelope)
  | receive
  | dispose
  | begin (k : Nat)
  | work (now : Duration) (k : Nat)
  | answer (k : Nat)
  | enter (id : String) (c : Command) (route : Option String)
  | post (now : Duration) (k : Nat)
  | expire (now : Duration) (k : Nat)
  | return (k : Nat)

/-- What comes of an act, if it can be done. -/
def act? (h : Handler σ) (s : Service σ) : Act → Option (List Event × Service σ)
  | .deliver m => (s.send m).toOption.map ([.delivered m], ·)
  | .receive => s.receive?.map (s.receptions, ·)
  | .dispose => (s.dispose? h).map ([], ·)
  | .begin k => (s.begin? k).map ([], ·)
  | .work now k => (s.work? h now k).map (s.handlings h now k, ·)
  | .answer k => (s.answer? k).map (s.settlements k, ·)
  | .enter id c route => some ([.entered id], s.enter id c route)
  | .post now k => (s.post? now k).map (s.postings k, ·)
  | .expire now k => (s.expire? now k).map ([.expired k], ·)
  | .return k => (s.return? k).map fun (result, t) => ([.returned k result], t)

theorem step_of_map {o : Option (Service σ)} {fs : List Event}
    (hstep : ∀ u, o = some u → Step h s fs u) (ho : o.map (fs, ·) = some (es, t)) :
    Step h s es t := by
  obtain ⟨u, hu, he⟩ := Option.map_eq_some_iff.1 ho
  cases he
  exact hstep _ hu

theorem step_of_act? {a : Act} (ha : s.act? h a = some (es, t)) : Step h s es t := by
  cases a with
  | deliver m =>
    refine step_of_map (fun u hu => .deliver m ?_) ha
    cases hs : s.send m with
    | error e => simp [hs, Except.toOption] at hu
    | ok w => simpa [hs, Except.toOption] using hu
  | receive => exact step_of_map (fun u hu => .progress (.receive hu)) ha
  | dispose => exact step_of_map (fun u hu => .progress (.dispose hu)) ha
  | begin k => exact step_of_map (fun u hu => .progress (.begin k hu)) ha
  | work now k => exact step_of_map (fun u hu => .progress (.work now k hu)) ha
  | answer k => exact step_of_map (fun u hu => .progress (.answer k hu)) ha
  | enter id c route =>
    cases ha
    exact .enter id c route
  | post now k => exact step_of_map (fun u hu => .post now k hu) ha
  | expire now k => exact step_of_map (fun u hu => .expire now k hu) ha
  | «return» k =>
    obtain ⟨⟨result, u⟩, hu, he⟩ := Option.map_eq_some_iff.1 ha
    cases he
    exact .return k hu

/-- All that comes of acts one after the other. -/
def acts? (h : Handler σ) (s : Service σ) : List Act → Option (List Event × Service σ)
  | [] => some ([], s)
  | a :: as => do
    let (es, t) ← s.act? h a
    let (fs, u) ← t.acts? h as
    return (es ++ fs, u)

theorem run_of_acts? {as : List Act} (ha : s.acts? h as = some (es, t)) : Run h s es t := by
  induction as generalizing s es with
  | nil =>
    cases ha
    exact .refl
  | cons a as ih =>
    obtain ⟨⟨fs, u⟩, hu, ha⟩ := Option.bind_eq_some_iff.1 ha
    obtain ⟨⟨gs, v⟩, hv, he⟩ := Option.bind_eq_some_iff.1 ha
    cases he
    exact .append (.tail .refl (step_of_act? hu)) (ih hv)

end Switchboard.Service
