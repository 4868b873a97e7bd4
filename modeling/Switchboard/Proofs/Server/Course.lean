import Switchboard.Proofs.Server.Office

/-! The course of a server that serves nobody but its uplink: what has gone through each of its
parties, and what that comes to when all of them are done. -/
namespace Switchboard.Server

open scoped List
open Exchange (IsControl sourced)

variable {own : String} {v w : Service Agent} {o p : Office} {b c : Bytes} {m : Envelope}
  {es : List Service.Event} {k : Nat} {now : Duration}

theorem Prompt.setStage (hv : Prompt v) (stage : Job.Stage)
    (hstage : ∀ due outcome, stage ≠ .working due outcome) (k : Nat) : Prompt (v.setStage k stage) := by
  intro j hj
  obtain ⟨i, hi⟩ := List.mem_iff_getElem?.1 hj
  simp only [Service.setStage, List.getElem?_modify, Option.map_eq_map, Option.map_eq_some_iff]
    at hi
  obtain ⟨j', hj', rfl⟩ := hi
  split
  · exact hstage
  · exact hv j' (List.mem_of_getElem? hj')

/-- The server's own handler takes no time. -/
theorem work_agent (ht : v.work? Agent.handler now k = some w) :
    ∃ j state outcome, v.jobs[k]? = some j ∧ j.stage ≠ .finished ∧
      w = Service.setStage { v with state } k (.worked outcome) := by
  unfold Service.work? at ht
  split at ht
  · cases ht
    exact ⟨_, _, _, ‹_›, by simp, rfl⟩
  · split at ht <;> cases ht
    exact ⟨_, _, _, ‹_›, by simp, rfl⟩
  · cases ht

theorem Prompt.progress (hv : Prompt v) (hs : v.Sound)
    (hp : Service.Progress Agent.handler v es w) : Prompt w := by
  cases hp with
  | receive ht =>
    rcases Service.receive_cases ht with ⟨m, rest, -, -, rfl⟩ | ⟨-, -, he, -⟩ | ⟨-, rfl⟩
    · intro j hj
      rw [Service.dispatch_jobs] at hj
      rcases List.mem_append.1 hj with hj | hj
      · exact hv j hj
      · obtain ⟨n, -, rfl⟩ := List.mem_map.1 hj
        simp
    · rw [hs.input] at he
      cases he
    · exact hv
  | dispose ht =>
    obtain ⟨route, -, rfl⟩ := Service.dispose_cases ht
    exact hv
  | begin k ht =>
    obtain ⟨m, -, rfl⟩ := Service.begin_cases ht
    exact hv.setStage .begun (by simp) k
  | work now k ht =>
    obtain ⟨j, state, outcome, -, -, rfl⟩ := work_agent ht
    exact Prompt.setStage (v := { v with state }) hv (.worked outcome) (by simp) k
  | answer k ht =>
    obtain ⟨m, outcome, -, rfl⟩ := Service.answer_cases ht
    have hdone := hv.setStage .finished (by simp) k
    split
    · rwa [Service.respondWith, Service.emit_of_open (by exact hs.output)]
    · exact hdone

/-- What the loop and the jobs put out are answers. -/
theorem spoken_progress {h : Handler Agent} (hs : v.Sound) (hp : Service.Progress h v es w) :
    ∃ as, w.output.items = v.output.items ++ as ∧ ∀ a ∈ as, Spoken v.route a := by
  obtain ⟨hsaid, htaken⟩ := hp.silent
  have hout := (hp.balanced hs).2.output
  rw [htaken, List.nil_append] at hout
  refine ⟨_, hout.symm, fun a ha => ?_⟩
  obtain ⟨as, has, hput⟩ := Service.exists_answers v.route es
  rw [hsaid, List.nil_append] at hput
  replace ha := hput.mem_iff.1 ha
  clear hout hput
  generalize Service.verdicts es = vs at has
  induction has with
  | nil => cases ha
  | cons hva _ ih =>
    rcases List.mem_cons.1 ha with rfl | ha
    · exact ⟨hva.source, .inl hva.command⟩
    · exact ih ha

namespace Office

theorem Sound.input (hs : o.Sound) (b : Bytes) : (o.input b).Sound :=
  ⟨hs.own, hs.route, hs.service, hs.listens, hs.heard, hs.prompt, hs.spoken⟩

theorem Sound.step (hs : o.Sound) (hst : o.Step p) : p.Sound := by
  have hservice : ∀ n, (o.tell n).service.Sound := fun n =>
    ⟨hs.service.loop, hs.service.input, hs.service.output⟩
  cases hst with
  | hear | decode | fetchUp | drop | write =>
    exact ⟨hs.own, hs.route, hs.service, hs.listens, hs.heard, hs.prompt, hs.spoken⟩
  | enter =>
    exact ⟨hs.own, hs.route, hservice _, hs.listens, hs.heard, hs.prompt, hs.spoken⟩
  | start hv =>
    obtain ⟨-, rfl⟩ := Service.start_cases hv
    exact ⟨hs.own, hs.route, ⟨by simp, hs.service.input, hs.service.output⟩, hs.listens, hs.heard,
      hs.prompt, hs.spoken⟩
  | serve hv =>
    obtain ⟨hsound, hb⟩ := hv.balanced hs.service
    obtain ⟨hopen, hended⟩ := hv.channels hs.service
    obtain ⟨as, hout, has⟩ := spoken_progress hs.service hv
    refine ⟨hs.own, hb.route.trans hs.route, hsound, hopen.trans hs.listens, hended.trans hs.heard,
      hs.prompt.progress hs.service hv, fun n hn => ?_⟩
    rw [hout, ← List.append_assoc] at hn
    rcases List.mem_append.1 hn with hn | hn
    · exact hs.spoken n hn
    · exact hs.route ▸ has n hn
  | fetchDown h hd =>
    refine ⟨hs.own, hs.route, ⟨hs.service.loop, hs.service.input, hs.service.output⟩, hs.listens,
      hs.heard, hs.prompt, fun n hn => hs.spoken n ?_⟩
    simpa [h, hd] using hn
  | send h hl =>
    refine ⟨hs.own, hs.route, hs.service, hs.listens, hs.heard, hs.prompt, fun n hn => ?_⟩
    exact hs.spoken n (List.mem_append_right _ hn)
  | bounce h hl =>
    refine ⟨hs.own, hs.route, hservice _, hs.listens, hs.heard, hs.prompt, fun n hn => ?_⟩
    exact hs.spoken n (List.mem_append_right _ hn)

end Office

/-- What has gone through the parties of a server. -/
structure History where
  events : List Service.Event := []
  /-- The envelopes of all packets that were read. -/
  heard : List Envelope := []
  /-- Those of them that the pump of the uplink has routed. -/
  routed : List Envelope := []
  /-- What the pump of the service has routed. -/
  passed : List Envelope := []
  sent : List Envelope := []

/-- What one party has passed on the next one has, or it has passed it on in its turn. -/
structure Course (start : Service Agent) (news : List Envelope) (b : Bytes) (o : Office)
    (r : History) : Prop where
  run : Service.Run Agent.handler start r.events o.service
  read : ∀ c, r.heard ++ Packet.envelopesOf
      (o.reader.remaining Packet.maxLine (o.reads.flatten ++ c))
    = Packet.envelopesOf (Packet.grammar Packet.maxLine (b ++ c))
  heard : r.heard = r.routed ++ o.up.toList ++ o.outbox
  delivered : (Service.delivered r.events).filter Envelope.isRequest
    = ((r.routed.filter (Reaches o.own ·)).map (sourced · uplinkRoute)).filter Envelope.isRequest
  said : Service.said r.events = news
  taken : Service.taken r.events = r.passed ++ o.down.toList
  passed : r.passed.filter (Leaves o.own ·) = r.sent ++ o.inbox
  written : o.written = r.sent.flatMap line

variable {start : Service Agent} {news : List Envelope} {r : History}

theorem send_tell (hl : o.service.input.isOpen = true) (m : Envelope) :
    o.service.send m = .ok (o.tell m).service := by
  have hq : o.service.input.push? m
      = some { o.service.input with items := o.service.input.items ++ [m] } := if_pos hl
  rw [Service.send, hq]
  rfl

/-- What the service says to itself is no command. -/
theorem isCommand_of_not_leaves (hm : Spoken own m) (hl : ¬ Leaves own m) :
    m.isCommand = false := by
  have hc : m.command = none := hm.command.resolve_right fun hc => hl (.inl hc)
  simp [Envelope.isCommand, hc]

namespace Course

theorem input (hc : Course start news b o r) (c : Bytes) :
    Course start news (b ++ c) (o.input c) r :=
  { hc with read := fun d => by simpa [Office.input] using hc.read (c ++ d) }

/-- What a step of the service adds to its events. -/
theorem attend (hc : Course start news b o r) (hv : Service.Step Agent.handler o.service es v)
    (hsaid : Service.said es = []) :
    Service.Run Agent.handler start (r.events ++ es) v ∧ Service.said (r.events ++ es) = news ∧
      Service.taken (r.events ++ es) = r.passed ++ o.down.toList ++ Service.taken es ∧
      (Service.delivered (r.events ++ es)).filter Envelope.isRequest
        = ((r.routed.filter (Reaches o.own ·)).map (sourced · uplinkRoute)).filter
            Envelope.isRequest ++ (Service.delivered es).filter Envelope.isRequest := by
  refine ⟨hc.run.tail hv, ?_, ?_, ?_⟩
  · rw [Service.said_append, hsaid, List.append_nil, hc.said]
  · rw [Service.taken_append, hc.taken]
  · rw [Service.delivered_append, List.filter_append, hc.delivered]

/-- A chunk that is split off has been read. -/
theorem decode {d : Packet.Chunk} {s : Packet.Reader} (hc : Course start news b o r)
    (h : o.reader.split? Packet.maxLine = some (d, s)) :
    Course start news b { o with reader := s, outbox := o.outbox ++ d.envelope?.toList }
      { r with heard := r.heard ++ d.envelope?.toList } := by
  refine { hc with read := fun e => ?_, heard := by simp [hc.heard] }
  obtain ⟨hj, -, -⟩ := Packet.Reader.split?_remaining h (o.reads.flatten ++ e)
  have hsplit := congrArg Packet.envelopesOf hj
  rw [Packet.envelopesOf_joined, Packet.envelopesOf_joined, Packet.envelopesOf_cons] at hsplit
  rw [← hc.read e, hsplit, List.append_assoc]

theorem enter (hc : Course start news b o r) (hs : o.Sound) (h : o.up = some m)
    (hr : Reaches o.own m) :
    Course start news b ({ o with up := none }.tell (sourced m uplinkRoute))
      { r with
        events := r.events ++ [.delivered (sourced m uplinkRoute)], routed := r.routed ++ [m] } := by
  obtain ⟨hrun, hsaid, htaken, hdelivered⟩ :=
    hc.attend (.deliver _ (send_tell hs.listens (sourced m uplinkRoute))) rfl
  have hm : (r.routed ++ [m]).filter (Reaches o.own ·)
      = r.routed.filter (Reaches o.own ·) ++ [m] := by simp [hr]
  refine { hc with
    run := hrun
    heard := by simp [hc.heard, h, Office.tell]
    delivered := ?_
    said := hsaid
    taken := htaken.trans (List.append_nil _) }
  show _ = (((r.routed ++ [m]).filter (Reaches o.own ·)).map _).filter _
  rw [hdelivered, hm, List.map_append, List.filter_append]
  rfl

theorem drop (hc : Course start news b o r) (h : o.up = some m) (hr : ¬ Reaches o.own m) :
    Course start news b { o with up := none } { r with routed := r.routed ++ [m] } := by
  refine { hc with heard := by simp [hc.heard, h], delivered := ?_ }
  have hm : [m].filter (Reaches o.own ·) = [] := by simp [hr]
  rw [List.filter_append, hm, List.append_nil]
  exact hc.delivered

/-- The service goes on, and what it hears and is heard of stays as it is. -/
theorem serve (hc : Course start news b o r) (hv : Service.Step Agent.handler o.service es v)
    (hsaid : Service.said es = []) (htaken : Service.taken es = [])
    (hdelivered : Service.delivered es = []) :
    Course start news b { o with service := v } { r with events := r.events ++ es } := by
  obtain ⟨hrun, hsaid', htaken', hdelivered'⟩ := hc.attend hv hsaid
  rw [htaken, List.append_nil] at htaken'
  rw [hdelivered, List.filter_nil, List.append_nil] at hdelivered'
  exact { hc with run := hrun, delivered := hdelivered', said := hsaid', taken := htaken' }

theorem fetchDown {rest : List Envelope} (hc : Course start news b o r)
    (h : o.service.output.items = m :: rest) (hd : o.down = none) :
    Course start news b { o with down := some m, service.output.items := rest }
      { r with events := r.events ++ [.taken m] } := by
  have hq : o.service.output.take
      = .envelope m { o.service.output with items := rest } := by rw [Queue.take, h]
  obtain ⟨hrun, hsaid, htaken, hdelivered⟩ := hc.attend (.take hq) rfl
  rw [hd, Option.toList_none, List.append_nil] at htaken
  exact { hc with
    run := hrun
    delivered := hdelivered.trans (List.append_nil _)
    said := hsaid
    taken := htaken }

/-- What the service says to itself is no request. -/
theorem bounce (hc : Course start news b o r) (hs : o.Sound) (h : o.down = some m)
    (hl : ¬ Leaves o.own m) :
    Course start news b ({ o with down := none }.tell m)
      { r with events := r.events ++ [.delivered m], passed := r.passed ++ [m] } := by
  obtain ⟨hrun, hsaid, htaken, hdelivered⟩ :=
    hc.attend (.deliver m (send_tell hs.listens m)) rfl
  have hm : (Service.delivered [.delivered m]).filter Envelope.isRequest = [] := by
    simp [Service.delivered, Envelope.isRequest,
      isCommand_of_not_leaves (hs.spoken m (by simp [h])) hl]
  rw [hm, List.append_nil] at hdelivered
  refine { hc with
    run := hrun
    delivered := hdelivered
    said := hsaid
    taken := by rw [htaken, h]; simp [Service.taken, Office.tell]
    passed := ?_ }
  show (r.passed ++ [m]).filter (Leaves o.own ·) = r.sent ++ o.inbox
  simp [hc.passed, hl]

theorem step (hc : Course start news b o r) (hs : o.Sound) (hst : o.Step p) :
    ∃ q, Course start news b p q := by
  cases hst with
  | hear h =>
    refine ⟨r, { hc with read := fun e => ?_ }⟩
    simpa [h, Packet.Reader.remaining_receive] using hc.read e
  | decode h => exact ⟨_, hc.decode h⟩
  | fetchUp h hu => exact ⟨r, { hc with heard := by simp [hc.heard, h, hu] }⟩
  | enter h hr => exact ⟨_, hc.enter hs h hr⟩
  | drop h hr => exact ⟨_, hc.drop h hr⟩
  | start hv => exact ⟨_, hc.serve (.start hv) rfl rfl rfl⟩
  | serve hv =>
    obtain ⟨hsaid, htaken⟩ := hv.silent
    exact ⟨_, hc.serve (.progress hv) hsaid htaken hv.delivered⟩
  | fetchDown h hd => exact ⟨_, hc.fetchDown h hd⟩
  | @send m h hl =>
    exact ⟨{ r with passed := r.passed ++ [m] }, { hc with
      taken := by simp [hc.taken, h]
      passed := by simp [hc.passed, hl] }⟩
  | bounce h hl => exact ⟨_, hc.bounce hs h hl⟩
  | @write m rest h =>
    exact ⟨{ r with sent := r.sent ++ [m] }, { hc with
      passed := by simp [hc.passed, h]
      written := by simp [hc.written] }⟩

/-- When nothing is left to be read, all packets have been heard. -/
theorem heard_eq (hc : Course start news b o r) (hq : o.Quiet) :
    r.heard = Packet.envelopesOf (Packet.grammar Packet.maxLine b) := by
  have hrest : Packet.envelopesOf (o.reader.remaining Packet.maxLine []) = [] := by
    rw [(Packet.Reader.finish_remaining hq.reader).1]
    unfold Packet.Reader.finish
    split <;> rfl
  have hread := hc.read []
  rwa [hq.reads, List.flatten_nil, List.append_nil, hrest, List.append_nil, List.append_nil]
    at hread

/-- The requests among what was delivered whose answers leave the server. -/
theorem requests_eq (hc : Course start news b o r) (ho : o.own ≠ uplinkRoute) (hq : o.Quiet) :
    ((Service.delivered r.events).filter Envelope.isRequest).filter
        (fun m => m.source ≠ none ∧ m.source ≠ some o.own)
      = ((Packet.envelopesOf (Packet.grammar Packet.maxLine b)).filter (Wants o.own ·)).map
          (sourced · uplinkRoute) := by
  have hrouted : r.routed = Packet.envelopesOf (Packet.grammar Packet.maxLine b) := by
    rw [← hc.heard_eq hq, hc.heard, hq.up, hq.outbox]
    simp
  rw [hc.delivered, hrouted, List.filter_map, List.filter_map, List.filter_filter,
    List.filter_filter]
  congr 1
  refine List.filter_congr fun m _ => ?_
  have hrequest : (sourced m uplinkRoute).isRequest = m.isRequest := by
    rw [Exchange.sourced_eq]
    rfl
  have hsource : (sourced m uplinkRoute).source = some (m.source.getD uplinkRoute) := by
    rw [Exchange.sourced_eq]
  have helsewhere (x : Option String) : x.getD uplinkRoute ≠ o.own ↔ x ≠ some o.own := by
    cases x <;> simp [Ne.symm ho]
  rw [Bool.eq_iff_iff]
  simp only [Function.comp_apply, hrequest, hsource, Bool.and_eq_true, decide_eq_true_eq,
    Option.some_ne_none, Option.some.injEq, not_false_eq_true, true_and, ne_eq]
  rw [← Ne, helsewhere, Wants]
  tauto

/-- When all parties are done, the news and the answers to the requests have been written. -/
theorem outcome (hc : Course start news b o r) (hs : o.Sound) (hq : o.Quiet)
    (hstart : start.Sound) (hclear : start.Clear) (hempty : start.output.items = []) :
    ∃ sent as, o.written = sent.flatMap line ∧ sent ~ news.filter (Leaves o.own ·) ++ as ∧
      List.Forall₂ (Reply o.own)
        ((Packet.envelopesOf (Packet.grammar Packet.maxLine b)).filter (Wants o.own ·)) as := by
  have hbalanced := (hc.run.balanced hstart).2
  obtain ⟨vs, hvs⟩ := hbalanced.answered hclear hq.service
  obtain ⟨gained, as, hgained, hput, hanswers⟩ := hvs.output
  have hown : start.route = o.own := hbalanced.route.symm.trans hs.route
  rw [hown] at hanswers
  have hpassed : gained = r.passed := by
    simpa [hempty, hc.taken, hq.down, hq.output] using hgained
  have hsent : r.sent ~ (news ++ as).filter (Leaves o.own ·) := by
    have hfilter := hput.filter (Leaves o.own ·)
    rwa [hpassed, hc.passed, hq.inbox, List.append_nil, hc.said] at hfilter
  -- an answer leaves the server if its request had come from elsewhere
  have hleave : List.Forall₂ (Service.Answers o.own)
      (vs.filter fun v => v.1.source ≠ none ∧ v.1.source ≠ some o.own)
      (as.filter (Leaves o.own ·)) := by
    refine List.rel_filter (fun v a ha => ?_) hanswers
    simp [Leaves, ha.command, ha.route]
  have hrequests : (vs.filter fun v => v.1.source ≠ none ∧ v.1.source ≠ some o.own).map (·.1)
      ~ ((Packet.envelopesOf (Packet.grammar Packet.maxLine b)).filter (Wants o.own ·)).map
          (sourced · uplinkRoute) := by
    have hfilter := hvs.requests.filter (fun m => m.source ≠ none ∧ m.source ≠ some o.own)
    rwa [hc.requests_eq hs.own hq, List.filter_map] at hfilter
  have hpairs : List.Forall₂ (fun m a => a.command = none ∧ a.responseId = m.requestId ∧
      a.route = m.source ∧ a.source = some o.own)
      ((vs.filter fun v => v.1.source ≠ none ∧ v.1.source ≠ some o.own).map (·.1))
      (as.filter (Leaves o.own ·)) :=
    List.forall₂_map_left_iff.2 <| hleave.imp fun v a ha =>
      ⟨ha.command, ha.responseId, ha.route, ha.source⟩
  obtain ⟨bs, hbs, hperm⟩ := List.perm_comp_forall₂ hrequests.symm hpairs
  refine ⟨r.sent, bs, hc.written, ?_, ?_⟩
  · calc r.sent ~ (news ++ as).filter (Leaves o.own ·) := hsent
      _ = news.filter (Leaves o.own ·) ++ as.filter (Leaves o.own ·) := List.filter_append ..
      _ ~ _ := hperm.symm.append_left _
  · refine (List.forall₂_map_left_iff.1 hbs).imp fun m a ha => ?_
    rw [Exchange.sourced_eq] at ha
    exact ⟨ha.1, ha.2.1, ha.2.2.1, ha.2.2.2⟩

end Course

end Switchboard.Server
