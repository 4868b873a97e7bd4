import Switchboard.Proofs.Packet.Reading

/-! What the two queues receive of a stream that does not fail: what the line grammar says,
however the stream is cut into reads and whoever has gone. -/
namespace Switchboard

namespace Read

variable {limit : Nat} {reads : List Read}

theorem flatten_pieces (hlimit : 0 < limit) {fuel : Nat} {b : Bytes} (h : b.length ≤ fuel) :
    (pieces limit fuel b).flatten = b := by
  induction fuel generalizing b with
  | zero => simp_all [pieces]
  | succ fuel ih =>
    by_cases hb : b = []
    · simp [pieces, hb]
    · have hpos : 0 < b.length := List.length_pos_iff.2 hb
      have hdrop : (b.drop limit).length ≤ fuel := by
        rw [List.length_drop]
        omega
      simp [pieces, hb, ih hdrop]

theorem bytes_map_data (bs : List Bytes) : bytes (bs.map .data) = bs.flatten := by
  induction bs with
  | nil => rfl
  | cons b bs ih => simp [ih]

theorem failures_map_data (bs : List Bytes) : failures (bs.map .data) = [] := by
  induction bs with
  | nil => rfl
  | cons b bs ih => simp [ih]

theorem bytes_append (reads more : List Read) :
    bytes (reads ++ more) = bytes reads ++ bytes more := by
  simp [bytes]

theorem failures_append (reads more : List Read) :
    failures (reads ++ more) = failures reads ++ failures more := by
  simp [failures]

/-- Reading into a buffer cuts the stream up and does nothing else. -/
theorem bytes_cut (hlimit : 0 < limit) (reads : List Read) :
    bytes (cut limit reads) = bytes reads := by
  induction reads with
  | nil => rfl
  | cons r reads ih =>
    rw [cut, List.flatMap_cons, bytes_append, ← cut, ih]
    cases r with
    | data b => simp [bytes_map_data, flatten_pieces hlimit]
    | failure text => simp

theorem failures_cut (limit : Nat) (reads : List Read) :
    failures (cut limit reads) = failures reads := by
  induction reads with
  | nil => rfl
  | cons r reads ih =>
    rw [cut, List.flatMap_cons, failures_append, ← cut, ih]
    cases r with
    | data b => simp [failures_map_data]
    | failure text => simp

end Read

namespace Packet

variable {r : Reader} {reads : List Read} {fuel : Nat}

/-- The envelope of a packet, if there is one in it. -/
def Chunk.envelope? : Chunk → Option Envelope
  | .packet body => (Envelope.ofJson body).toOption
  | .raw _ => none

def Chunk.text? : Chunk → Option Bytes
  | .packet _ => none
  | .raw b => some b

def envelopesOf (cs : List Chunk) : List Envelope := cs.filterMap Chunk.envelope?

/-- All other text, put together. -/
def textOf (cs : List Chunk) : Bytes := cs.flatMap fun c => c.text?.getD []

theorem envelopesOf_cons (c : Chunk) (cs : List Chunk) :
    envelopesOf (c :: cs) = c.envelope?.toList ++ envelopesOf cs := by
  cases h : c.envelope? <;> simp [envelopesOf, h]

theorem envelopesOf_append (cs ds : List Chunk) :
    envelopesOf (cs ++ ds) = envelopesOf cs ++ envelopesOf ds := by
  simp [envelopesOf]

theorem envelopesOf_map_raw (bs : List Bytes) : envelopesOf (bs.map .raw) = [] := by
  simp [envelopesOf, Chunk.envelope?]

theorem textOf_cons (c : Chunk) (cs : List Chunk) :
    textOf (c :: cs) = c.text?.getD [] ++ textOf cs := rfl

theorem textOf_append (cs ds : List Chunk) : textOf (cs ++ ds) = textOf cs ++ textOf ds := by
  simp [textOf]

theorem textOf_map_raw (bs : List Bytes) : textOf (bs.map .raw) = bs.flatten := by
  simp [textOf, List.flatMap_map, Chunk.text?]

theorem envelopesOf_joined (cs : List Chunk) : envelopesOf (joined cs) = envelopesOf cs := by
  have h := flatMap_joined (fun c => c.envelope?.toList) (fun _ _ => rfl) cs
  simpa [envelopesOf, List.filterMap_eq_flatMap_toList] using h

theorem textOf_joined (cs : List Chunk) : textOf (joined cs) = textOf cs :=
  flatMap_joined _ (fun _ _ => rfl) cs

theorem flatten_text (cs : List Chunk) : (cs.filterMap Chunk.text?).flatten = textOf cs := by
  induction cs with
  | nil => rfl
  | cons c cs ih => cases c <;> simpa [textOf, List.filterMap_cons, Chunk.text?] using ih

theorem Sink.foldl_send {α : Type} (xs : List α) (q : Sink α) :
    xs.foldl send q = if q.isOpen then { q with items := q.items ++ xs } else q := by
  induction xs generalizing q with
  | nil => simp
  | cons x xs ih =>
    rw [List.foldl_cons, ih]
    cases h : q.isOpen <;> simp [send, h]

/-- Neither queue depends on what becomes of the other. -/
theorem foldl_accept (cs : List Chunk) (q : Sinks) :
    cs.foldl Sinks.accept q =
      ⟨(envelopesOf cs).foldl Sink.send q.envelopes,
        (cs.filterMap Chunk.text?).foldl Sink.send q.raw⟩ := by
  induction cs generalizing q with
  | nil => rfl
  | cons c cs ih =>
    rw [List.foldl_cons, ih]
    cases c with
    | raw b => rfl
    | packet body =>
      cases he : Envelope.ofJson body <;>
        simp [Sinks.accept, envelopesOf, List.filterMap_cons, Chunk.envelope?, Chunk.text?, he,
          Except.toOption]

/-- With fuel for every byte that is to come, all of a stream that does not fail is sent on. -/
theorem sendChunks_eq (hfuel : r.size reads < fuel) (hreads : Read.failures reads = []) :
    ∃ cs, joined cs = joined (r.remaining maxLine (Read.bytes reads)) ∧
      ∀ q, sendChunks fuel r reads q = (cs.foldl Sinks.accept q, .ok ()) := by
  induction fuel generalizing r reads with
  | zero => exact absurd hfuel (Nat.not_lt_zero _)
  | succ fuel ih =>
    have hnext := @Reader.next_answered maxLine r reads
    generalize hv : r.next maxLine reads = v at hnext
    obtain ⟨a, s, left⟩ := v
    cases hnext with
    | chunk said nonempty failures less =>
      rename_i c
      have hless : s.size left < fuel := less.trans_le (Nat.le_of_lt_succ hfuel)
      obtain ⟨cs, hcs, hall⟩ := ih hless (failures ▸ hreads)
      refine ⟨c :: cs, ?_, fun q => ?_⟩
      · rw [said]
        exact joined_cons c hcs
      · rw [sendChunks, hv]
        exact hall _
    | failed said failures less => simp [hreads] at failures
    | ended said failures empty => exact ⟨[], by simp [said], fun q => by simp [sendChunks, hv]⟩

/-- A stream that does not fail is received as the line grammar says, by whoever is there. -/
theorem received_eq (hreads : Read.failures reads = []) (forEnvelopes forText : Bool) :
    received ⟨{ isOpen := forEnvelopes }, { isOpen := forText }⟩ reads =
      ⟨if forEnvelopes then envelopesOf (grammar maxLine (Read.bytes reads)) else [],
        if forText then textOf (grammar maxLine (Read.bytes reads)) else [], .ok ()⟩ := by
  have hlimit : 0 < readSize := by decide
  have hbytes := Read.bytes_cut hlimit reads
  have hcut : Read.failures (Read.cut readSize reads) = [] :=
    (Read.failures_cut readSize reads).trans hreads
  have hfuel : Reader.size {} (Read.cut readSize reads)
      < (Read.bytes (Read.cut readSize reads)).length + 1 := by
    simp [Reader.size, hcut]
  obtain ⟨cs, hcs, hsend⟩ := sendChunks_eq hfuel hcut
  have hgrammar : joined cs = joined (grammar maxLine (Read.bytes reads)) := by
    simpa [Reader.remaining, hbytes] using hcs
  have henvelopes : envelopesOf cs = envelopesOf (grammar maxLine (Read.bytes reads)) := by
    rw [← envelopesOf_joined, hgrammar, envelopesOf_joined]
  have htext : textOf cs = textOf (grammar maxLine (Read.bytes reads)) := by
    rw [← textOf_joined, hgrammar, textOf_joined]
  rw [received, parse, hsend, foldl_accept, Sink.foldl_send, Sink.foldl_send, ← henvelopes,
    ← htext, ← flatten_text]
  cases forEnvelopes <;> cases forText <;> simp

end Packet

end Switchboard
