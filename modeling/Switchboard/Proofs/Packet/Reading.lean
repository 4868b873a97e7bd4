import Switchboard.Proofs.Packet.Grammar
import Switchboard.Proofs.Stream

/-! Reading a stream chunk by chunk: whatever the reads bring, and in whatever pieces, the answers
stand for what the line grammar says of the whole stream. -/
namespace Switchboard

namespace Packet

variable {max : Nat} {b c l line rest : Bytes} {d : Chunk} {r s : Reader} {reads : List Read}

/-- What is still to come of a stream when a line of other text has begun. -/
def continued (max : Nat) (b : Bytes) : List Chunk :=
  match Bytes.splitLine? b with
  | some (line, rest) => .raw line :: grammar max rest
  | none => if b = [] then [] else [.raw b]

theorem continued_newline (h : 10 ∉ l) (rest : Bytes) :
    continued max (l ++ 10 :: rest) = .raw (l ++ [10]) :: grammar max rest := by
  simp [continued, Bytes.splitLine?_newline h]

theorem continued_tail (h : 10 ∉ b) : continued max b = if b = [] then [] else [.raw b] := by
  simp [continued, Bytes.splitLine?_eq_none_iff.2 h]

/-- Other text may be handed out before its line ends. -/
theorem joined_continued_append (h : 10 ∉ b) (hb : b ≠ []) (c : Bytes) :
    joined (continued max (b ++ c)) = joined (.raw b :: continued max c) := by
  obtain hc | ⟨l, rest, hl, rfl⟩ := Bytes.line_cases c
  · have hbc : 10 ∉ b ++ c := by simp [h, hc]
    rw [continued_tail hbc, continued_tail hc]
    by_cases he : c = []
    · simp [he, hb]
    · simp [he, joined]
  · have hbl : 10 ∉ b ++ l := by simp [h, hl]
    have hc := @continued_newline max (b ++ l) hbl rest
    rw [List.append_assoc] at hc
    rw [hc, continued_newline hl, joined_raw_raw, List.append_assoc]

theorem not_mem_marker : 10 ∉ marker := by decide

/-- Something without a newline that begins a line and what follows it begins the line. -/
theorem prefix_of_prefix_line (h : 10 ∉ b) (hp : b <+: l ++ 10 :: rest) : b <+: l := by
  have hl : l ++ [10] <+: l ++ 10 :: rest := ⟨rest, by simp⟩
  rcases List.prefix_or_prefix_of_prefix hp hl with h' | h'
  · rcases List.prefix_concat_iff.1 h' with rfl | h'
    · simp at h
    · exact h'
  · exact absurd (h'.subset (by simp)) h

theorem grammar_of_unmarked (h : ¬marker <+: b) : grammar max b = continued max b := by
  obtain hb | ⟨l, rest, hl, rfl⟩ := Bytes.line_cases b
  · simp [grammar_tail hb, continued_tail hb, tailChunks, h]
  · have hm : ¬marker <+: l := fun hm => h (hm.trans (List.prefix_append l _))
    simp [grammar_newline hl, continued_newline hl, lineChunk, hm]

/-- A line that has grown too long is no packet, wherever it ends. -/
theorem grammar_of_long (hb : 10 ∉ b) (hl : max < b.length) (c : Bytes) :
    grammar max (b ++ c) = continued max (b ++ c) := by
  obtain hc | ⟨l, rest, hn, he⟩ := Bytes.line_cases (b ++ c)
  · have hlong : ¬b.length + c.length ≤ max := by omega
    simp [grammar_tail hc, continued_tail hc, tailChunks, hlong]
  · have hp : b <+: l := prefix_of_prefix_line hb (he ▸ List.prefix_append b c)
    have hlong : ¬l.length < max := by
      have := hp.length_le
      omega
    simp [he, grammar_newline hn, continued_newline hn, lineChunk, hlong]

/-- Once the beginning of a line is seen not to be the marker's, nothing behind it matters. -/
theorem unmarked_append (hm : ¬marker <+: b) (hs : ¬(b.length < marker.length ∧ b <+: marker))
    (c : Bytes) : ¬marker <+: b ++ c := by
  intro h
  rcases List.prefix_or_prefix_of_prefix h (List.prefix_append b c) with h' | h'
  · exact hm h'
  · by_cases hl : b.length < marker.length
    · exact hs ⟨hl, h'⟩
    · rw [h'.eq_of_length_le (Nat.le_of_not_lt hl)] at hm
      exact hm (List.prefix_refl _)

theorem markedLine_eq (h : marker <+: l) : Reader.markedLine max (l ++ [10]) = lineChunk max l := by
  obtain ⟨t, rfl⟩ := h
  have hd : (marker ++ t ++ [10]).drop marker.length = t ++ [10] := by
    rw [List.append_assoc, List.drop_left]
  simp only [Reader.markedLine, lineChunk, Reader.isObject, hd, List.dropLast_concat,
    List.drop_left, List.length_append, List.length_singleton]
  by_cases hlen : marker.length + t.length < max
  · have : marker.length + t.length + 1 ≤ max := hlen
    simp [hlen, this]
  · have : ¬marker.length + t.length + 1 ≤ max := hlen
    simp [hlen, this]

theorem lineChunk_ne_raw_nil (max : Nat) (l : Bytes) : lineChunk max l ≠ .raw [] := by
  simp only [lineChunk]
  split <;> simp

namespace Reader

/-- What the reader has still to say, if `b` is what it has still to read. -/
def remaining (max : Nat) (r : Reader) (b : Bytes) : List Chunk :=
  if r.midLine then continued max (r.buffer ++ b) else grammar max (r.buffer ++ b)

theorem rawLine_continued (h : rawLine b = (d, s)) (hb : b ≠ []) (c : Bytes) :
    joined (continued max (b ++ c)) = joined (d :: s.remaining max c) ∧ d ≠ .raw [] ∧
      s.buffer.length < b.length := by
  obtain hn | ⟨l, rest, hl, rfl⟩ := Bytes.line_cases b
  · rw [rawLine, Bytes.splitLine?_eq_none_iff.2 hn] at h
    cases h
    refine ⟨joined_continued_append hn hb c, by simpa using hb, ?_⟩
    exact List.length_pos_iff.2 hb
  · rw [rawLine, Bytes.splitLine?_newline hl] at h
    cases h
    refine ⟨?_, by simp, by simp; omega⟩
    rw [List.append_assoc, List.cons_append, continued_newline hl]
    rfl

theorem isPrefixOf_eq_false (h : ¬marker <+: b) : marker.isPrefixOf b = false :=
  Bool.eq_false_iff.2 fun hp => h (List.isPrefixOf_iff_prefix.1 hp)

theorem split?_empty (hb : r.buffer = []) : split? max r = none := by
  simp [split?, hb]

theorem split?_midLine (hb : r.buffer ≠ []) (hm : r.midLine = true) :
    split? max r = some (rawLine r.buffer) := by
  simp [split?, hb, hm]

/-- The beginning of a marker may become a packet, or not. -/
theorem split?_short (hb : r.buffer ≠ []) (hm : r.midLine = false)
    (hs : r.buffer.length < marker.length ∧ r.buffer <+: marker) : split? max r = none := by
  simp [split?, hb, hm, hs]

theorem split?_unmarked (hb : r.buffer ≠ []) (hm : r.midLine = false)
    (hs : ¬(r.buffer.length < marker.length ∧ r.buffer <+: marker)) (hp : ¬marker <+: r.buffer) :
    split? max r = some (rawLine r.buffer) := by
  have hp' := isPrefixOf_eq_false hp
  simp [split?, hb, hm, hs, hp']

theorem split?_marked (hm : r.midLine = false) (hp : marker <+: r.buffer) :
    split? max r = match Bytes.splitLine? r.buffer with
      | some (line, rest) => some (markedLine max line, ⟨rest, false⟩)
      | none => if max < r.buffer.length then some (.raw r.buffer, ⟨[], true⟩) else none := by
  have hl : ¬r.buffer.length < marker.length := Nat.not_lt.2 hp.length_le
  have hb : r.buffer ≠ [] := fun hb => hl (by simp [hb, marker])
  have hp' : marker.isPrefixOf r.buffer = true := List.isPrefixOf_iff_prefix.2 hp
  cases hn : Bytes.splitLine? r.buffer <;> simp [split?, hb, hm, hl, hp', hn]

/-- A chunk that the reader hands out is the next thing that it had to say, whatever follows. -/
theorem split?_remaining (h : split? max r = some (d, s)) (c : Bytes) :
    joined (r.remaining max c) = joined (d :: s.remaining max c) ∧ d ≠ .raw [] ∧
      s.buffer.length < r.buffer.length := by
  by_cases hb : r.buffer = []
  · rw [split?_empty hb] at h
    cases h
  cases hm : r.midLine with
  | true =>
    rw [split?_midLine hb hm] at h
    have hr : r.remaining max c = continued max (r.buffer ++ c) := by simp [remaining, hm]
    rw [hr]
    exact rawLine_continued (Option.some.inj h) hb c
  | false =>
    have hr : r.remaining max c = grammar max (r.buffer ++ c) := by simp [remaining, hm]
    rw [hr]
    by_cases hs : r.buffer.length < marker.length ∧ r.buffer <+: marker
    · rw [split?_short hb hm hs] at h
      cases h
    by_cases hp : marker <+: r.buffer
    · rw [split?_marked hm hp] at h
      obtain hn | ⟨l, rest, hl, hbuf⟩ := Bytes.line_cases r.buffer
      · obtain ⟨hlong, rfl, rfl⟩ : max < r.buffer.length ∧ .raw r.buffer = d ∧ ⟨[], true⟩ = s := by
          simpa [Bytes.splitLine?_eq_none_iff.2 hn] using h
        rw [grammar_of_long hn hlong]
        exact ⟨joined_continued_append hn hb c, by simpa using hb, List.length_pos_iff.2 hb⟩
      · have hml : marker <+: l := prefix_of_prefix_line not_mem_marker (hbuf ▸ hp)
        obtain ⟨rfl, rfl⟩ : lineChunk max l = d ∧ ⟨rest, false⟩ = s := by
          simpa [hbuf, Bytes.splitLine?_newline hl, markedLine_eq hml] using h
        rw [hbuf, List.append_assoc, List.cons_append, grammar_newline hl]
        exact ⟨rfl, lineChunk_ne_raw_nil max l, by simp; omega⟩
    · rw [split?_unmarked hb hm hs hp] at h
      rw [grammar_of_unmarked (unmarked_append hp hs c)]
      exact rawLine_continued (Option.some.inj h) hb c

/-- At the end of a stream the reader says the rest: one last piece of text, or nothing. -/
theorem finish_remaining (h : split? max r = none) :
    r.remaining max [] = r.finish.1.toList ∧ r.finish.2.buffer = [] ∧
      ∀ d, r.finish.1 = some d → d ≠ .raw [] ∧ 0 < r.buffer.length := by
  by_cases hb : r.buffer = []
  · simp [hb, remaining, continued, Bytes.splitLine?, finish]
  cases hm : r.midLine with
  | true => simp [split?_midLine hb hm] at h
  | false =>
    have hr : r.remaining max [] = grammar max r.buffer := by simp [remaining, hm]
    rw [hr]
    by_cases hs : r.buffer.length < marker.length ∧ r.buffer <+: marker
    · have hn : 10 ∉ r.buffer := fun hn => not_mem_marker (hs.2.subset hn)
      have hp : ¬marker <+: r.buffer := fun hp => Nat.not_lt.2 hp.length_le hs.1
      have hp' := isPrefixOf_eq_false hp
      refine ⟨?_, ?_, ?_⟩
      · simp [grammar_tail hn, tailChunks, finish, hb, hp, hp']
      · simp [finish, hb, hp']
      · intro d hd
        have hd : Chunk.raw r.buffer = d := by simpa [finish, hb, hp'] using hd
        exact ⟨by simpa [← hd] using hb, List.length_pos_iff.2 hb⟩
    by_cases hp : marker <+: r.buffer
    · have hp' : marker.isPrefixOf r.buffer = true := List.isPrefixOf_iff_prefix.2 hp
      rw [split?_marked hm hp] at h
      obtain hn | ⟨l, rest, hl, hbuf⟩ := Bytes.line_cases r.buffer
      · have hshort : r.buffer.length ≤ max := by
          simpa [Bytes.splitLine?_eq_none_iff.2 hn] using h
        simp [grammar_tail hn, tailChunks, finish, hb, hp, hp', hshort]
      · simp [hbuf, Bytes.splitLine?_newline hl] at h
    · simp [split?_unmarked hb hm hs hp] at h

/-- What is left to be handed out or to fail; every answer but the last ones takes some of it. -/
def size (r : Reader) (reads : List Read) : Nat :=
  r.buffer.length + (Read.bytes reads).length + (Read.failures reads).length

/-- What one answer means for the state that it leaves: a chunk is the next thing that was to be
said, a failure changes nothing, and the end comes when nothing is left. -/
inductive Answered (max : Nat) (r : Reader) (reads : List Read) :
    Answer → Reader → List Read → Prop
  | chunk {d : Chunk} {s : Reader} {rest : List Read}
      (said : joined (r.remaining max (Read.bytes reads))
        = joined (d :: s.remaining max (Read.bytes rest)))
      (nonempty : d ≠ .raw []) (failures : Read.failures reads = Read.failures rest)
      (less : s.size rest < r.size reads) : Answered max r reads (.chunk d) s rest
  | failed {text : String} {s : Reader} {rest : List Read}
      (said : r.remaining max (Read.bytes reads) = s.remaining max (Read.bytes rest))
      (failures : Read.failures reads = text :: Read.failures rest)
      (less : s.size rest < r.size reads) : Answered max r reads (.failed text) s rest
  | ended {s : Reader} (said : r.remaining max (Read.bytes reads) = [])
      (failures : Read.failures reads = []) (empty : s.buffer = []) :
      Answered max r reads .ended s []

theorem remaining_receive (r : Reader) (b c : Bytes) :
    (r.receive b).remaining max c = r.remaining max (b ++ c) := by
  simp [remaining, receive]

theorem size_receive (r : Reader) (b : Bytes) (reads : List Read) :
    (r.receive b).size reads = r.size (.data b :: reads) := by
  simp [size, receive]
  omega

/-- Taking up what a read has brought is no answer yet. -/
theorem Answered.of_receive {a : Answer} {left : List Read}
    (h : Answered max (r.receive b) reads a s left) :
    Answered max r (.data b :: reads) a s left := by
  have hb : Read.bytes (.data b :: reads) = b ++ Read.bytes reads := rfl
  have hf : Read.failures (.data b :: reads) = Read.failures reads := rfl
  cases h with
  | chunk said nonempty failures less =>
    rw [remaining_receive, ← hb] at said
    exact .chunk said nonempty (hf.trans failures) (size_receive r b reads ▸ less)
  | failed said failures less =>
    rw [remaining_receive, ← hb] at said
    exact .failed said (hf.trans failures) (size_receive r b reads ▸ less)
  | ended said failures empty =>
    rw [remaining_receive, ← hb] at said
    exact .ended said (hf.trans failures) empty

theorem Answered.of_split? (h : split? max r = some (d, s)) (reads : List Read) :
    Answered max r reads (.chunk d) s reads := by
  obtain ⟨hsaid, hne, hless⟩ := split?_remaining h (Read.bytes reads)
  refine .chunk hsaid hne rfl ?_
  simp only [size]
  omega

theorem Answered.of_finish (h : split? max r = none) :
    Answered max r [] (match r.finish.1 with | some d => .chunk d | none => .ended)
      r.finish.2 [] := by
  obtain ⟨hsaid, hempty, hsome⟩ := finish_remaining h
  cases hd : r.finish.1 with
  | none =>
    refine .ended ?_ rfl hempty
    simpa [hd] using hsaid
  | some d =>
    obtain ⟨hne, hpos⟩ := hsome d hd
    have hnil : r.finish.2.remaining max [] = [] := by
      simp [remaining, hempty, continued, Bytes.splitLine?]
    refine .chunk ?_ hne rfl ?_
    · simp [hsaid, hd, hnil]
    · simpa [size, hempty] using hpos

theorem next_answered (r : Reader) (reads : List Read) :
    Answered max r reads (next max r reads).1 (next max r reads).2.1 (next max r reads).2.2 := by
  induction reads generalizing r with
  | nil =>
    unfold next
    cases hs : split? max r with
    | some v => exact .of_split? hs []
    | none =>
      have hf := Answered.of_finish hs
      cases hd : r.finish with
      | mk d s => cases d <;> simpa [hd] using hf
  | cons x reads ih =>
    unfold next
    cases hs : split? max r with
    | some v => exact .of_split? hs _
    | none =>
      cases x with
      | data b => exact .of_receive (ih (r.receive b))
      | failure text =>
        exact .failed (by simp) (by simp) (by simp [size])

def Answer.chunk? : Answer → Option Chunk
  | .chunk c => some c
  | _ => none

def Answer.failure? : Answer → Option String
  | .failed text => some text
  | _ => none

/-- The answers to a number of requests for the next chunk, made whatever the last answer was. -/
def answers (max : Nat) : (n : Nat) → Reader → List Read → List Answer
  | 0, _, _ => []
  | n + 1, r, reads =>
    let (a, r, reads) := next max r reads
    a :: answers max n r reads

/-- Once a stream has ended it stays so. -/
theorem answers_of_ended (hb : r.buffer = []) (n : Nat) :
    answers max n r [] = List.replicate n .ended := by
  induction n generalizing r with
  | zero => rfl
  | succ n ih =>
    have hnext : next max r [] = (.ended, r, []) := by
      obtain ⟨b, mid⟩ := r
      subst hb
      simp [next, split?, finish]
    simp [answers, hnext, ih hb, List.replicate_succ]

/-- The answers of a reader that has `b` still to read, up to the end of the stream. -/
structure Tells (max : Nat) (r : Reader) (reads : List Read) (as : List Answer) : Prop where
  ends : ∀ k, answers max (as.length + k) r reads = as ++ List.replicate k .ended
  ongoing : .ended ∉ as
  nonempty : .chunk (.raw []) ∉ as
  failures : as.filterMap Answer.failure? = Read.failures reads
  chunks : joined (as.filterMap Answer.chunk?) = joined (r.remaining max (Read.bytes reads))

theorem exists_tells (r : Reader) (reads : List Read) : ∃ as, Tells max r reads as := by
  induction hn : r.size reads using Nat.strongRecOn generalizing r reads with
  | ind n ih =>
    have hnext := @next_answered max r reads
    have hcons (k : Nat) : answers max (k + 1) r reads = (next max r reads).1 ::
      answers max k (next max r reads).2.1 (next max r reads).2.2 := rfl
    generalize next max r reads = v at hnext hcons
    obtain ⟨a, s, left⟩ := v
    cases hnext with
    | chunk said nonempty failures less =>
      rename_i d
      obtain ⟨as, has⟩ := ih _ (hn ▸ less) s left rfl
      refine ⟨.chunk d :: as, ⟨fun k => ?_, ?_, ?_, ?_, ?_⟩⟩
      · rw [List.length_cons, Nat.add_right_comm, hcons, has.ends, List.cons_append]
      · simpa using has.ongoing
      · simpa [nonempty.symm] using has.nonempty
      · simpa [List.filterMap_cons, Answer.failure?, failures] using has.failures
      · rw [said]
        exact joined_cons d has.chunks
    | failed said failures less =>
      rename_i text
      obtain ⟨as, has⟩ := ih _ (hn ▸ less) s left rfl
      refine ⟨.failed text :: as, ⟨fun k => ?_, ?_, ?_, ?_, ?_⟩⟩
      · rw [List.length_cons, Nat.add_right_comm, hcons, has.ends, List.cons_append]
      · simpa using has.ongoing
      · simpa using has.nonempty
      · simpa [List.filterMap_cons, Answer.failure?, failures] using has.failures
      · rw [said]
        exact has.chunks
    | ended said failures empty =>
      refine ⟨[], ⟨fun k => ?_, by simp, by simp, failures.symm, by simp [said]⟩⟩
      cases k with
      | zero => rfl
      | succ k =>
        rw [List.length_nil, Nat.zero_add, hcons, answers_of_ended empty]
        rfl

/-- Asking for chunks again and again, after failures too, comes to the end of the stream and
stays there. However the bytes were cut into reads, the chunks are those of the line grammar, up
to the cutting of other text; so nothing of the stream is lost but a packet that is cut off. -/
theorem answers_follow_grammar (max : Nat) (reads : List Read) :
    ∃ as : List Answer,
      (∀ k, answers max (as.length + k) {} reads = as ++ List.replicate k .ended) ∧
      .ended ∉ as ∧ .chunk (.raw []) ∉ as ∧
      as.filterMap Answer.failure? = Read.failures reads ∧
      joined (as.filterMap Answer.chunk?) = joined (grammar max (Read.bytes reads)) ∧
      (as.filterMap Answer.chunk?).flatMap Chunk.source
        ++ lostTail max (Bytes.lines (Read.bytes reads)).2 = Read.bytes reads := by
  obtain ⟨as, h⟩ := @exists_tells max {} reads
  have hchunks : joined (as.filterMap Answer.chunk?) = joined (grammar max (Read.bytes reads)) := by
    simpa [remaining] using h.chunks
  refine ⟨as, h.ends, h.ongoing, h.nonempty, h.failures, hchunks, ?_⟩
  rw [← source_joined, hchunks, source_joined]
  exact source_grammar max (Read.bytes reads)

end Reader

end Packet

end Switchboard
