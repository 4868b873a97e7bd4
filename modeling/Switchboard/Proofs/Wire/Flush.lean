import Switchboard.Proofs.MessagePack.Head
import Switchboard.Proofs.Wire.Writing

/-! What a client gets before the end of its stream. As long as its connection goes on, everything
that is queued for it and makes a frame is written. What is still queued when the connection ends is
written up to the first envelope that makes no frame, and nothing behind that one. -/
namespace Switchboard

variable {σ : Type} {x y : Exchange σ} {c d : Connection} {s t : Served} {es : List Event}
  {hs : List Handing} {p : Peer} {sent rest ms : List Envelope} {m : Envelope}

open Exchange

/-- A step of a party that does not write: the peer gets what the log says, and the stream may fail
at most. -/
structure Served.Idle (x : Exchange σ) (s : Served) (es : List Event) (y : Exchange σ)
    (t : Served) : Prop where
  hands : Hands s.connection.peer (Event.handings es) x y
  outlet : t.connection.outlet =
    { s.connection.outlet with failing := t.connection.outlet.failing }
  failing : t.connection.outlet.failing = none → s.connection.outlet.failing = none
  peer : t.connection.peer = s.connection.peer
  cancelled : s.connection.guard.cancelled = true → t.connection.guard.cancelled = true

namespace Served

theorem idle_of_outlet (hh : Hands s.connection.peer (Event.handings es) x y)
    (ho : t.connection.outlet = s.connection.outlet)
    (hp : t.connection.peer = s.connection.peer)
    (hc : s.connection.guard.cancelled = true → t.connection.guard.cancelled = true) :
    Idle x s es y t :=
  ⟨hh, by rw [ho], fun hf => ho ▸ hf, hp, hc⟩

theorem idle_service (h : s.connection.Serves x es y d) :
    Idle x s (.served :: es) y { s with connection := d } := by
  cases h with
  | hear _ hh => exact idle_of_outlet (Handshake.hands_hear? hh) rfl rfl id
  | expire => exact idle_of_outlet (hands_handAll [] x) rfl rfl id
  | step =>
    obtain ⟨ho, hc⟩ := s.connection.step_writes x
    exact idle_of_outlet (s.connection.hands_step x) ho (s.connection.step_fixed x).1 hc

theorem idle_read (h : s.connection.Reads x y d) : Idle x s [] y { s with connection := d } := by
  have hb := h.beside
  refine idle_of_outlet ?_ h.outlet hb.peer fun hc => by rw [hb.guard, hc]
  cases h with
  | ended => exact hands_modifyPeer fun _ => rfl
  | decoded => exact hands_modifyPeer fun _ => rfl
  | _ => exact hands_handAll [] x

theorem idle_call {q r : Closing} {k : Nat} (h : s.connection.closeStep x q = (y, d, r)) :
    Idle x s (q.events x s.connection) y { connection := d, calls := s.calls.set k r } := by
  have hh := q.hands x s.connection (k := s.connection.peer)
  have hd := s.connection.closeStep_eq x q
  rw [h] at hh hd
  rcases hd with rfl | rfl
  · exact idle_of_outlet hh rfl rfl id
  · exact idle_of_outlet hh rfl rfl fun _ => rfl

/-- A party writes, or it leaves what is queued to the writer. -/
theorem step_cases (h : s.Step x es y t) :
    (∃ d, s.connection.write? x = some (y, d) ∧ es = [] ∧ t = { s with connection := d }) ∨
      Idle x s es y t := by
  cases h with
  | write h => exact .inl ⟨_, h, rfl, rfl⟩
  | service h => exact .inr (idle_service h)
  | read h => exact .inr (idle_read (Connection.reads_of_read? h).2)
  | close h =>
    refine .inr (idle_of_outlet (hands_handAll [] x) rfl rfl fun hc => ?_)
    have hg := s.connection.guard.cancelled_beginClose
    rw [h] at hg
    exact hg.trans hc
  | call _ _ h => exact .inr (idle_call h)
  | arrive => exact .inr (idle_of_outlet (hands_handAll [] x) rfl rfl id)
  | hangUp => exact .inr (idle_of_outlet (hands_handAll [] x) rfl rfl id)
  | failWrites text => exact .inr ⟨hands_handAll [] x, rfl, nofun, rfl, id⟩

end Served

/-- A connection among all that goes on at its exchange, with what has got into the inbox of its
peer. -/
structure Writing (σ : Type) where
  exchange : Exchange σ
  served : Served
  queued : List Envelope := []

namespace Writing

variable {w v : Writing σ}

def peer (w : Writing σ) : Nat := w.served.connection.peer

def outlet (w : Writing σ) : Outlet := w.served.connection.outlet

/-- A step of anybody. Others may hand the peer what they want, but none of them takes anything out
of its inbox. -/
inductive Step (w : Writing σ) : Writing σ → Prop
  | party {es : List Event} {y : Exchange σ} {t : Served} (h : w.served.Step w.exchange es y t) :
      Step w {
        exchange := y
        served := t
        queued := w.queued ++ w.exchange.received (Event.handings es) w.peer }
  | others {hs : List Handing} {y : Exchange σ} (h : w.exchange.Hands w.peer hs y) :
      Step w { w with
        exchange := y
        queued := w.queued ++ w.exchange.received hs w.peer }

/-- What comes of a new connection to `x`. -/
inductive Reachable (x : Exchange σ) : Writing σ → Prop
  | start (grace : Duration) (maxFrame : Nat) :
      Reachable x { exchange := x.meet, served := .new x.endpoints.length grace maxFrame }
  | step {w v : Writing σ} (h : Reachable x w) (hs : Step w v) : Reachable x v

/-- What has become of all that was queued when writing has ended: one part was sent while the
connection went on, and the rest was still there when it ended. -/
structure Flushed (w : Writing σ) (sent rest : List Envelope) : Prop where
  queued : w.queued = sent ++ rest
  cancelled : rest ≠ [] → w.served.connection.guard.cancelled = true
  written : w.outlet.written = Frame.frames sent ++ Frame.frames (rest.takeWhile Frame.fits)
  /-- What is missing of all the frames are those behind the first envelope that makes none. -/
  missing : w.outlet.written ++ Frame.frames (rest.dropWhile Frame.fits) = Frame.frames w.queued
  /-- Nothing is missing exactly if all of those make no frame either. -/
  whole : w.outlet.written = Frame.frames w.queued ↔
    ∀ m ∈ rest.dropWhile Frame.fits, Frame.fits m = false
  shut : w.outlet.shut = true

/-- How far writing is. -/
inductive Stands (w : Writing σ) : Prop
  | writing (sent : List Envelope) (hr : w.outlet.result = none)
      (hq : w.queued = sent ++ w.exchange.incoming w.peer)
      (hw : w.outlet.written = Frame.frames sent)
  | ended (sent rest : List Envelope) (hr : w.outlet.result = some (.ok ()))
      (hl : w.exchange.listens w.peer = false) (hf : w.Flushed sent rest)

theorem flushed_of_parts (hq : w.queued = sent ++ rest)
    (hc : rest ≠ [] → w.served.connection.guard.cancelled = true)
    (hw : w.outlet.written = Frame.frames sent ++ Frame.frames (rest.takeWhile Frame.fits))
    (hs : w.outlet.shut = true) : w.Flushed sent rest := by
  have hmissing :
      w.outlet.written ++ Frame.frames (rest.dropWhile Frame.fits) = Frame.frames w.queued := by
    rw [hw, hq, List.append_assoc, Frame.frames_split, Frame.frames_append]
  refine ⟨hq, hc, hw, hmissing, ?_, hs⟩
  rw [← Frame.frames_eq_nil_iff, ← hmissing]
  exact List.self_eq_append_right

namespace Stands

/-- What others do, and what the parties do besides writing, adds to the queue at most. -/
theorem later (h : Stands w) (hh : w.exchange.Hands w.peer hs y)
    (hp : t.connection.peer = w.peer)
    (hw : t.connection.outlet.written = w.outlet.written)
    (hs' : t.connection.outlet.shut = w.outlet.shut)
    (hr : t.connection.outlet.result = w.outlet.result)
    (hc : w.served.connection.guard.cancelled = true → t.connection.guard.cancelled = true) :
    Stands {
      exchange := y
      served := t
      queued := w.queued ++ w.exchange.received hs w.peer } := by
  cases h with
  | writing sent hnone hq hsent =>
    refine .writing sent (hr.trans hnone) ?_ (hw.trans hsent)
    show _ = sent ++ y.incoming t.connection.peer
    rw [hp, hh.incoming, hq, List.append_assoc]
  | ended sent rest hsome hl hf =>
    have hq : w.queued ++ w.exchange.received hs w.peer = sent ++ rest := by
      rw [received_of_shut hl, List.append_nil, hf.queued]
    refine .ended sent rest (hr.trans hsome) ?_ ?_
    · show y.listens t.connection.peer = false
      rw [hp, hh.listens, hl]
    · exact flushed_of_parts hq (fun hne => hc (hf.cancelled hne)) (hw.trans hf.written)
        (hs'.trans hf.shut)

theorem write (h : Stands w) (hd : w.served.connection.write? w.exchange = some (y, d))
    (hf : d.outlet.failing = none) :
    Stands { w with exchange := y, served := { w.served with connection := d } } := by
  obtain ⟨-, hnone, p, hp, hs⟩ := Connection.writes_of_write? hd hf
  cases h with
  | ended sent rest hr => exact absurd (hnone.symm.trans hr) nofun
  | writing sent _ hq hw =>
    have hin : w.exchange.incoming w.peer = p.inbox.items := incoming_of_peer? hp
    cases hs with
    | @taken m q _ htake =>
      have hy := incoming_of_peer? (peer?_modifyPeer hp fun p => { p with inbox := q })
      refine .writing (sent ++ [m]) hnone ?_ ?_
      · show w.queued = sent ++ [m] ++ Exchange.incoming _ w.served.connection.peer
        rw [hy, hq, hin, (Queue.take_envelope htake).1, List.append_assoc, List.singleton_append]
      · show w.outlet.written ++ Frame.frames [m] = _
        rw [hw, Frame.frames_append]
    | ended hc =>
      have hcancel : p.inbox.items ≠ [] → w.served.connection.guard.cancelled = true :=
        fun hne => hc.resolve_right fun htake => hne (Queue.take_ended htake)
      refine .ended sent p.inbox.items rfl ?_ ?_
      · exact listens_of_peer? (peer?_modifyPeer hp fun p => { p with inbox := p.inbox.close })
      · refine flushed_of_parts (hq.trans (by rw [hin])) hcancel ?_ rfl
        show w.outlet.written ++ _ = _
        rw [hw]

end Stands

/-- Every step leaves the writer at one of its stages, unless the stream fails. -/
theorem Step.stands (h : Step w v) (hs : w.outlet.failing = none → Stands w)
    (hf : v.outlet.failing = none) : Stands v := by
  cases h with
  | others hh => exact (hs hf).later hh rfl rfl rfl rfl id
  | @party es y t h =>
    rcases Served.step_cases h with ⟨d, hd, rfl, rfl⟩ | hi
    · have hw := (hs (Connection.writes_of_write? hd hf).1).write hd hf
      simpa [Event.handings] using hw
    · have ho := hi.outlet
      exact (hs (hi.failing hf)).later hi.hands hi.peer (by rw [ho]; rfl) (by rw [ho]; rfl)
        (by rw [ho]; rfl) hi.cancelled

theorem stands_of_reachable (h : Reachable x w) (hf : w.outlet.failing = none) : Stands w := by
  induction h with
  | start grace maxFrame =>
    refine .writing [] rfl ?_ rfl
    simp [Writing.peer, Served.new, meet, Exchange.incoming, Endpoint.incoming]
  | step _ hs ih => exact hs.stands ih hf

/-- When the writer has ended and the stream has not failed, the client has got the frames of all
that was taken while the connection went on, and of the rest those up to the first envelope that
makes none. -/
theorem exists_flushed (h : Reachable x w) (hf : w.outlet.failing = none)
    (hr : w.outlet.result.isSome) : ∃ sent rest, w.Flushed sent rest := by
  cases stands_of_reachable h hf with
  | writing sent hnone =>
    rw [hnone] at hr
    cases hr
  | ended sent rest _ _ hfl => exact ⟨sent, rest, hfl⟩

/-- Writing goes on: some envelopes were taken, and the others wait. -/
structure Underway (x : Exchange σ) (w : Writing σ) (sent rest : List Envelope) : Prop where
  reachable : Reachable x w
  queued : w.queued = sent ++ rest
  inbox : ∃ p, w.exchange.peer? w.peer = some p ∧ p.inbox.items = rest
  written : w.outlet.written = Frame.frames sent
  failing : w.outlet.failing = none
  result : w.outlet.result = none

namespace Underway

theorem write (h : Underway x w sent rest) (hp : w.exchange.peer? w.peer = some p)
    (hs : w.served.connection.Writes w.exchange p y d) :
    Reachable x { w with exchange := y, served := { w.served with connection := d } } := by
  have hw := Connection.write?_of_writes h.failing h.result hp hs
  simpa [Event.handings] using h.reachable.step (.party (.write hw))

/-- Anything can be handed to a peer that is listened to. -/
theorem queue (h : Underway x w sent rest) (hl : w.exchange.listens w.peer = true)
    (ms : List Envelope) : ∃ v, Underway x v sent (rest ++ ms) ∧ v.served = w.served := by
  let hs : List Handing := ms.map fun m => ⟨w.peer, m⟩
  have hall := hands_handAll (k := w.peer) hs w.exchange
  have hreceived : w.exchange.received hs w.peer = ms := by
    have htaken : w.exchange.taken hs = hs :=
      List.filter_eq_self.2 (by simp [hs, hl])
    have hown : hs.filter (·.endpoint = w.peer) = hs := List.filter_eq_self.2 (by simp [hs])
    rw [received, htaken, hown, List.map_map]
    exact List.map_id ms
  obtain ⟨p, hp, hi⟩ := h.inbox
  have hpapers : (w.exchange.handAll hs).papers w.peer = some (p.route, p.authToken) := by
    rw [papers_handAll, papers, hp]
    rfl
  obtain ⟨q, hq, -⟩ := peer?_of_papers hpapers
  refine ⟨_, ⟨h.reachable.step (.others hall), ?_, ⟨q, hq, ?_⟩, h.written, h.failing, h.result⟩, rfl⟩
  · rw [hreceived, h.queued, List.append_assoc]
  · rw [← incoming_of_peer? hq, hall.incoming, hreceived, incoming_of_peer? hp, hi]

/-- While the connection goes on, whatever is at the front of the queue can be written. -/
theorem send (h : Underway x w sent (ms ++ rest))
    (hc : w.served.connection.guard.cancelled = false) :
    ∃ v, Underway x v (sent ++ ms) rest ∧
      v.served.connection.guard = w.served.connection.guard := by
  induction ms generalizing w sent with
  | nil => exact ⟨w, by simpa using h, rfl⟩
  | cons m ms ih =>
    obtain ⟨p, hp, hi⟩ := h.inbox
    have htake : p.inbox.take = .envelope m { p.inbox with items := ms ++ rest } := by
      rw [Queue.take, hi]
      rfl
    have hnext : Underway x _ (sent ++ [m]) (ms ++ rest) :=
      { reachable := h.write hp (.taken hc htake)
        queued := by simpa using h.queued
        inbox := ⟨_, peer?_modifyPeer hp fun q =>
          { q with inbox := { p.inbox with items := ms ++ rest } }, rfl⟩
        written := by
          rw [Frame.frames_append, ← h.written]
          rfl
        failing := h.failing
        result := h.result }
    obtain ⟨v, hv, hg⟩ := ih hnext hc
    exact ⟨v, by simpa using hv, hg⟩

/-- Whoever closes a connection for the first time can go on to tell both sides of its stream. -/
theorem cancel (h : Underway x w sent rest) (hc : w.served.connection.guard.closed = false) :
    ∃ v, Underway x v sent rest ∧ v.served.connection.guard.cancelled = true := by
  obtain ⟨exchange, ⟨connection, calls⟩, queued⟩ := w
  have hb : connection.guard.beginClose =
      ({ connection.guard with closed := true, route := none }, .marked connection.guard.route) := by
    rw [Guard.beginClose, if_neg (Bool.eq_false_iff.1 hc)]
  have hclose := h.reachable.step (.party (.close hb))
  have hcall := hclose.step (.party
    (.call (k := calls.length) (c := .marked connection.guard.route) (by simp) rfl rfl))
  simp only [Event.handings, Event.handing?, Closing.events, List.filterMap_cons,
    List.filterMap_nil, received_nil, List.append_nil] at hcall
  exact ⟨_, ⟨hcall, h.queued, h.inbox, h.written, h.failing, h.result⟩, rfl⟩

theorem flush (h : Underway x w sent rest) (hc : w.served.connection.guard.cancelled = true) :
    ∃ v : Writing σ, Reachable x v ∧ v.outlet.failing = none ∧ v.outlet.result.isSome ∧
      v.queued = sent ++ rest ∧
      v.outlet.written = Frame.frames sent ++ Frame.frames (rest.takeWhile Frame.fits) := by
  obtain ⟨p, hp, rfl⟩ := h.inbox
  refine ⟨_, h.write hp (.ended (.inl hc)), h.failing, rfl, h.queued, ?_⟩
  rw [← h.written]
  rfl

end Underway

/-- Whatever is queued, the connection can end at any place in it. -/
theorem exists_parting (x : Exchange σ) (sent rest : List Envelope) : ∃ w : Writing σ,
    Reachable x w ∧ w.outlet.failing = none ∧ w.outlet.result.isSome ∧ w.queued = sent ++ rest ∧
      w.outlet.written = Frame.frames sent ++ Frame.frames (rest.takeWhile Frame.fits) := by
  have hmet : x.meet.peer? x.endpoints.length = some {} := by
    simp [meet, peer?, Endpoint.peer?]
  have hstart : Underway x _ [] [] :=
    ⟨.start (.ofSeconds 5) Frame.maxBody, rfl, ⟨_, hmet, rfl⟩, rfl, rfl, rfl⟩
  obtain ⟨w, hqueued, hserved⟩ := hstart.queue (listens_of_peer? hmet) (sent ++ rest)
  have hwaits : Underway x w [] (sent ++ rest) := hqueued
  obtain ⟨v, hsent, hguard⟩ := hwaits.send (by rw [hserved]; rfl)
  obtain ⟨u, hended, hcancelled⟩ := hsent.cancel (by rw [hguard, hserved]; rfl)
  exact hended.flush hcancelled

/-- What is queued when a connection ends without regard to it is flushed all the same. -/
theorem parting_flushed : ∃ w : Writing Unit, Reachable {} w ∧ w.outlet.failing = none ∧
    w.outlet.result.isSome ∧ w.queued = [{ command := some "hi" }, { command := some "bye" }] ∧
      ∃ sent rest, w.Flushed sent rest := by
  obtain ⟨w, hw, hf, hr, hq, -⟩ :=
    exists_parting (σ := Unit) {} [{ command := some "hi" }] [{ command := some "bye" }]
  exact ⟨w, hw, hf, hr, hq, exists_flushed hw hf hr⟩

end Writing

namespace MessagePack

theorem length_write_le {members : List (String × Value)} {k : String} {v : Value}
    (h : (k, v) ∈ members) : (write v).length ≤ (writeMembers members).length := by
  induction members with
  | nil => cases h
  | cons e members ih =>
    obtain ⟨k', v'⟩ := e
    rw [writeMembers, List.length_append, List.length_append]
    rcases List.mem_cons.1 h with he | he
    · cases he
      omega
    · have := ih he
      omega

end MessagePack

namespace Envelope

/-- The body of an envelope is longer than what it says of an error. -/
theorem length_error_le {e : String} (h : m.error = some e) :
    (Bytes.ofText e).length ≤ m.toMessagePack.length := by
  have hmem : ("error", Value.string e) ∈ layout.entries m := by
    simp [Layout.entries, layout, Field.entry?, Field.name, h]
  have hwrite := MessagePack.length_write_le hmem
  rw [MessagePack.write, MessagePack.writeString, List.length_append] at hwrite
  rw [toMessagePack, MessagePack.writeRecord, MessagePack.write, List.length_append]
  omega

/-- An envelope with an error of so many characters. -/
def lengthy (n : Nat) : Envelope := { error := some (String.ofList (List.replicate n 'a')) }

theorem length_lengthy (n : Nat) : n ≤ (lengthy n).toMessagePack.length := by
  have hplain : ∀ c ∈ List.replicate n 'a', c.toNat < 128 := by
    intro c hc
    rw [List.eq_of_mem_replicate hc]
    decide
  have hle := length_error_le (m := lengthy n) rfl
  rw [Bytes.ofText_ofList hplain, List.length_map, List.length_replicate] at hle
  exact hle

theorem frame?_lengthy {n : Nat} (h : Frame.maxBody < n) : Frame.frame? (lengthy n) = none := by
  have hlong : Frame.maxBody < (lengthy n).toMessagePack.length :=
    Nat.lt_of_lt_of_le h (length_lengthy n)
  exact Frame.frame?_of_error (if_pos hlong)

end Envelope

namespace Writing

/-- An envelope that makes no frame keeps the one behind it from being sent when the connection ends,
although that one would have been sent before. -/
theorem exists_withheld : ∃ w : Writing Unit, Reachable {} w ∧ w.outlet.failing = none ∧
    w.outlet.result.isSome ∧ w.queued = [.lengthy (Frame.maxBody + 1), {}] ∧
      w.outlet.written = [] ∧ Frame.frames w.queued = [0, 0, 0, 1, 0x80] := by
  have hlong : Frame.frame? (.lengthy (Frame.maxBody + 1)) = none :=
    Envelope.frame?_lengthy (Nat.lt_succ_self _)
  have hfits : Frame.fits (.lengthy (Frame.maxBody + 1)) = false := by rw [Frame.fits, hlong]; rfl
  obtain ⟨w, hw, hf, hr, hq, hwritten⟩ :=
    exists_parting (σ := Unit) {} [] [.lengthy (Frame.maxBody + 1), {}]
  refine ⟨w, hw, hf, hr, hq, ?_, ?_⟩
  · rw [hwritten, List.takeWhile_cons_of_neg (by simp [hfits])]
    rfl
  · rw [hq, List.nil_append, Frame.frames_cons, hlong]
    decide +kernel

end Writing

end Switchboard
