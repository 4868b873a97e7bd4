import Switchboard.Proofs.Packet.Reading

/-! What a reader holds back while it waits for more: the beginning of a line on which it has not
decided, which is more than the beginning of a packet. -/
namespace Switchboard.Packet

variable {max : Nat} {b h l t u body : Bytes} {d : Chunk}

/-- The beginning of a line that the reader takes neither for a packet nor for other text. -/
def Unsettled (max : Nat) (t : Bytes) : Prop :=
  t.length < marker.length ∧ t <+: marker ∨ marker <+: t ∧ t.length ≤ max

instance (max : Nat) (t : Bytes) : Decidable (Unsettled max t) :=
  inferInstanceAs (Decidable (_ ∨ _))

/-- Of an unfinished line, what is held back. -/
def held (max : Nat) (t : Bytes) : Bytes := if Unsettled max t then t else []

/-- What a packet's line may still begin with. -/
def Promising (max : Nat) (h : Bytes) : Prop :=
  ∃ l body, 10 ∉ l ∧ lineChunk max l = .packet body ∧ h <+: l

/-- The beginning of a line with which no packet begins, although it begins with the marker: what
follows the marker is no object's beginning, or the line has grown too long, or no line can be a
packet. -/
def Overdue (max : Nat) (h : Bytes) : Prop :=
  max ≤ 5 ∨ ∃ x t, h = marker ++ x :: t ∧
    (x ≠ 123 ∨ max ≤ h.length ∨ max = h.length + 1 ∧ h.getLast? ≠ some 125)

/-- A decision is made by the beginning of a line, so what comes behind does not change it. -/
theorem Unsettled.of_append (h : Unsettled max (t ++ u)) : Unsettled max t := by
  obtain ⟨hlt, hp⟩ | ⟨hp, hle⟩ := h
  · rw [List.length_append] at hlt
    exact .inl ⟨by omega, (List.prefix_append t u).trans hp⟩
  · rw [List.length_append] at hle
    rcases List.prefix_or_prefix_of_prefix hp (List.prefix_append t u) with h' | h'
    · exact .inr ⟨h', by omega⟩
    · by_cases hlt : t.length < marker.length
      · exact .inl ⟨hlt, h'⟩
      · have heq : t = marker := h'.eq_of_length_le (Nat.le_of_not_lt hlt)
        exact .inr ⟨heq ▸ List.prefix_refl _, by omega⟩

theorem lineChunk_eq_packet_iff : lineChunk max l = .packet body ↔
    l = marker ++ body ∧ l.length < max ∧ body.head? = some 123 ∧ body.getLast? = some 125 := by
  constructor
  · intro h
    simp only [lineChunk] at h
    split at h
    · rename_i hl
      obtain ⟨⟨u, rfl⟩, hrest⟩ := hl
      obtain rfl : (marker ++ u).drop marker.length = body := Chunk.packet.inj h
      exact ⟨by simp, hrest⟩
    · cases h
  · rintro ⟨rfl, hlt, hhead, hlast⟩
    simp only [lineChunk, List.drop_left, List.prefix_append, true_and]
    rw [if_pos ⟨hlt, hhead, hlast⟩]

/-- The shortest packet is an object without members. -/
theorem lineChunk_empty (hmax : 5 < max) :
    lineChunk max (marker ++ [123, 125]) = .packet [123, 125] :=
  lineChunk_eq_packet_iff.2 ⟨rfl, hmax, rfl, rfl⟩

theorem not_overdue_of_promising (hp : Promising max h) : ¬Overdue max h := by
  obtain ⟨l, body, -, hl, hpre⟩ := hp
  obtain ⟨rfl, hlt, hhead, hlast⟩ := lineChunk_eq_packet_iff.1 hl
  obtain ⟨y, s, rfl⟩ : ∃ y s, body = 123 :: y :: s := by
    match body, hhead, hlast with
    | [_], hhead, hlast => simp_all
    | x :: y :: s, hhead, _ => exact ⟨y, s, by simpa using hhead⟩
  have hlen := hpre.length_le
  rintro (hmax | ⟨x, t, rfl, hx | hlong | ⟨hone, hne⟩⟩)
  · simp [marker] at hlt
    omega
  · obtain ⟨rfl, -⟩ : x = 123 ∧ t <+: y :: s := by simpa [marker] using hpre
    exact hx rfl
  · omega
  · have heq : marker ++ x :: t = marker ++ 123 :: y :: s := hpre.eq_of_length_le (by omega)
    rw [heq, List.getLast?_append, hlast] at hne
    exact hne rfl

theorem promising_of_not_overdue (hn : 10 ∉ h) (hu : Unsettled max h) (ho : ¬Overdue max h) :
    Promising max h := by
  simp only [Overdue, not_or, not_exists, not_and, Nat.not_le] at ho
  obtain ⟨hmax, ho⟩ := ho
  have hshort (hp : h <+: marker) : Promising max h :=
    ⟨_, _, by decide, lineChunk_empty hmax, hp.trans (List.prefix_append _ _)⟩
  obtain ⟨-, hp⟩ | ⟨⟨u, rfl⟩, -⟩ := hu
  · exact hshort hp
  cases u with
  | nil => exact hshort (by simp)
  | cons x t =>
    obtain ⟨hx, hlt, hone⟩ := ho x t rfl
    obtain rfl : x = 123 := by simpa using hx
    by_cases hlast : max = (marker ++ 123 :: t).length + 1
    · -- nothing but the newline may follow
      have hlast : (marker ++ 123 :: t).getLast? = some 125 := by simpa using hone hlast
      rw [List.getLast?_append_of_ne_nil _ (by simp)] at hlast
      exact ⟨_, _, hn, lineChunk_eq_packet_iff.2 ⟨rfl, hlt, rfl, hlast⟩, List.prefix_refl _⟩
    · refine ⟨marker ++ (123 :: t ++ [125]), 123 :: t ++ [125], ?_, ?_, ?_⟩
      · simpa [marker] using hn
      · refine lineChunk_eq_packet_iff.2 ⟨rfl, ?_, rfl, List.getLast?_concat⟩
        simp only [List.length_append, List.length_cons, List.length_nil] at hlast hlt ⊢
        omega
      · exact ⟨[125], by simp⟩

namespace Reader

variable {r s : Reader} {reads left : List Read} {as : List Answer}

/-- A reader has no chunk to hand out exactly if it has not decided on the line that it begins. -/
theorem split?_eq_none_iff : split? max r = none ↔
    r.buffer = [] ∨ r.midLine = false ∧ 10 ∉ r.buffer ∧ Unsettled max r.buffer := by
  by_cases hb : r.buffer = []
  · simp [split?_empty hb, hb]
  cases hm : r.midLine with
  | true => simp [split?_midLine hb hm, hb]
  | false =>
    by_cases hs : r.buffer.length < marker.length ∧ r.buffer <+: marker
    · have hn : 10 ∉ r.buffer := fun hn => not_mem_marker (hs.2.subset hn)
      simp [split?_short hb hm hs, hn, Unsettled, hs]
    by_cases hp : marker <+: r.buffer
    · rw [split?_marked hm hp]
      obtain hn | ⟨l, rest, hl, hbuf⟩ := Bytes.line_cases r.buffer
      · simp [Bytes.splitLine?_eq_none_iff.2 hn, hb, hn, Unsettled, hs, hp]
      · simp [hbuf, Bytes.splitLine?_newline hl]
    · simp [split?_unmarked hb hm hs hp, hb, Unsettled, hs, hp]

/-- What a chunk takes off the buffer: a line that ends, or all there is of one that does not. -/
inductive Takes (b : Bytes) (d : Chunk) (s : Reader) : Prop
  | line {l : Bytes} (hl : 10 ∉ l) (hb : b = l ++ 10 :: s.buffer) (hd : d.source = l ++ [10])
      (hs : s.midLine = false)
  | part (hn : 10 ∉ b) (hd : d = .raw b) (hs : s = ⟨[], true⟩)

theorem takes_of_rawLine (h : rawLine b = (d, s)) : Takes b d s := by
  obtain hn | ⟨l, rest, hl, rfl⟩ := Bytes.line_cases b
  · rw [rawLine, Bytes.splitLine?_eq_none_iff.2 hn] at h
    cases h
    exact .part hn rfl rfl
  · rw [rawLine, Bytes.splitLine?_newline hl] at h
    cases h
    exact .line hl rfl rfl rfl

theorem takes_of_split? (h : split? max r = some (d, s)) : Takes r.buffer d s := by
  by_cases hb : r.buffer = []
  · rw [split?_empty hb] at h
    cases h
  cases hm : r.midLine with
  | true =>
    rw [split?_midLine hb hm] at h
    exact takes_of_rawLine (Option.some.inj h)
  | false =>
    by_cases hs : r.buffer.length < marker.length ∧ r.buffer <+: marker
    · rw [split?_short hb hm hs] at h
      cases h
    by_cases hp : marker <+: r.buffer
    · rw [split?_marked hm hp] at h
      obtain hn | ⟨l, rest, hl, hbuf⟩ := Bytes.line_cases r.buffer
      · obtain ⟨-, rfl, rfl⟩ : max < r.buffer.length ∧ .raw r.buffer = d ∧ ⟨[], true⟩ = s := by
          simpa [Bytes.splitLine?_eq_none_iff.2 hn] using h
        exact .part hn rfl rfl
      · have hml : marker <+: l := prefix_of_prefix_line not_mem_marker (hbuf ▸ hp)
        obtain ⟨rfl, rfl⟩ : lineChunk max l = d ∧ ⟨rest, false⟩ = s := by
          simpa [hbuf, Bytes.splitLine?_newline hl, markedLine_eq hml] using h
        exact .line hl hbuf (source_lineChunk max l) rfl
    · rw [split?_unmarked hb hm hs hp] at h
      exact takes_of_rawLine (Option.some.inj h)

/-- A part of a stream's reading: what has been handed out, where the reader stands and what is
still to be read, as long as the end of the stream has not been read. -/
inductive Course (max : Nat) (reads : List Read) : List Answer → Reader → List Read → Prop
  | start : Course max reads [] {} reads
  | split {as : List Answer} {r s : Reader} {left : List Read} {d : Chunk}
      (h : Course max reads as r left) (hs : split? max r = some (d, s)) :
      Course max reads (as ++ [.chunk d]) s left
  | data {as : List Answer} {r : Reader} {left : List Read} {b : Bytes}
      (h : Course max reads as r (.data b :: left)) (hs : split? max r = none) :
      Course max reads as (r.receive b) left
  | failure {as : List Answer} {r : Reader} {left : List Read} {text : String}
      (h : Course max reads as r (.failure text :: left)) (hs : split? max r = none) :
      Course max reads (as ++ [.failed text]) r left

/-- The bytes of the stream that the answers hand out. -/
def handedOut (as : List Answer) : Bytes := (as.filterMap Answer.chunk?).flatMap Chunk.source

@[simp] theorem handedOut_nil : handedOut [] = [] := rfl

@[simp] theorem handedOut_chunk (as : List Answer) (d : Chunk) :
    handedOut (as ++ [.chunk d]) = handedOut as ++ d.source := by
  simp [handedOut, Answer.chunk?]

@[simp] theorem handedOut_failed (as : List Answer) (text : String) :
    handedOut (as ++ [.failed text]) = handedOut as := by
  simp [handedOut, Answer.chunk?]

theorem next_of_split? (h : split? max r = some (d, s)) (reads : List Read) :
    next max r reads = (.chunk d, s, reads) := by
  unfold next
  rw [h]

namespace Course

/-- The course of a reading is what the requests for chunks are answered with. -/
theorem answers_eq (h : Course max reads as r left) (k : Nat) :
    answers max (as.length + k) {} reads = as ++ answers max k r left := by
  induction h generalizing k with
  | start => simp
  | split h hs ih =>
    rw [List.length_append, List.length_singleton, Nat.add_assoc, Nat.add_comm 1, ih (k + 1),
      answers, next_of_split? hs, List.append_assoc]
    rfl
  | data h hs ih =>
    rw [ih k]
    cases k with
    | zero => rfl
    | succ k => simp only [answers, next, hs]
  | failure h hs ih =>
    rw [List.length_append, List.length_singleton, Nat.add_assoc, Nat.add_comm 1, ih (k + 1),
      List.append_assoc]
    simp only [answers, next, hs]
    rfl

/-- What holds all along: no byte is lost, and a line has been begun to be handed out only if its
beginning settles that it is no packet. -/
structure Sound (max : Nat) (reads : List Read) (as : List Answer) (r : Reader)
    (left : List Read) : Prop where
  bytes : handedOut as ++ r.buffer ++ Read.bytes left = Read.bytes reads
  fresh : r.midLine = false → (Bytes.lines (handedOut as)).2 = []
  settled : r.midLine = true → ¬Unsettled max (Bytes.lines (handedOut as)).2

theorem Sound.split (h : Sound max reads as r left) (hs : split? max r = some (d, s)) :
    Sound max reads (as ++ [.chunk d]) s left := by
  cases takes_of_split? hs with
  | line hl hb hd hm =>
    rename_i l
    have hout : handedOut (as ++ [.chunk d]) = (handedOut as ++ l) ++ 10 :: [] := by
      rw [handedOut_chunk, hd, List.append_assoc]
    refine ⟨?_, ?_, ?_⟩
    · rw [← h.bytes, hout, hb]
      simp
    · intro
      rw [hout, Bytes.unfinished_newline]
      rfl
    · rw [hm]
      simp
  | part hn hd hsr =>
    subst hd hsr
    refine ⟨?_, by simp, ?_⟩
    · rw [← h.bytes, handedOut_chunk]
      simp [Chunk.source]
    · intro _ hu
      rw [handedOut_chunk, Chunk.source, Bytes.unfinished_of_not_mem hn] at hu
      cases hm : r.midLine with
      | true => exact h.settled hm hu.of_append
      | false =>
        rw [h.fresh hm, List.nil_append] at hu
        rw [split?_eq_none_iff.2 (.inr ⟨hm, hn, hu⟩)] at hs
        cases hs

theorem sound (h : Course max reads as r left) : Sound max reads as r left := by
  induction h with
  | start => exact ⟨rfl, fun _ => rfl, by simp⟩
  | split _ hs ih => exact ih.split hs
  | data _ _ ih =>
    refine ⟨?_, ih.fresh, ih.settled⟩
    rw [← ih.bytes]
    simp [receive]
  | failure _ _ ih =>
    refine ⟨?_, ?_, ?_⟩
    · rw [← ih.bytes, handedOut_failed, Read.bytes_failure]
    · rw [handedOut_failed]
      exact ih.fresh
    · rw [handedOut_failed]
      exact ih.settled

/-- Before it reads on, a reader has handed out all but the unsettled beginning of a line. -/
theorem buffer_eq (h : Course max reads as r left) (hs : split? max r = none) :
    r.buffer = held max (Bytes.lines (handedOut as ++ r.buffer)).2 := by
  rcases split?_eq_none_iff.1 hs with hb | ⟨hm, hn, hu⟩
  · rw [hb, List.append_nil]
    cases hm : r.midLine with
    | true => rw [held, if_neg (h.sound.settled hm)]
    | false => rw [held, h.sound.fresh hm, ite_self]
  · rw [Bytes.unfinished_of_not_mem hn, h.sound.fresh hm, List.nil_append, held, if_pos hu]

/-- A reader has all its chunks taken before it reads on. -/
theorem exists_split (h : Course max reads as r left) : ∃ as r,
    Course max reads as r left ∧ split? max r = none := by
  induction hn : r.buffer.length using Nat.strongRecOn generalizing as r with
  | ind n ih =>
    cases hs : split? max r with
    | none => exact ⟨as, r, h, hs⟩
    | some v =>
      obtain ⟨d, s⟩ := v
      obtain ⟨-, -, hless⟩ := split?_remaining hs []
      exact ih _ (hn ▸ hless) (h.split hs) rfl

/-- Every read of a stream is come to, with the reads before it behind and the others ahead. -/
theorem exists_pause (max : Nat) (front left : List Read) : ∃ as r,
    Course max (front ++ left) as r left ∧ split? max r = none := by
  induction front using List.reverseRecOn generalizing left with
  | nil => exact exists_split .start
  | append_singleton front x ih =>
    rw [List.append_assoc, List.singleton_append]
    obtain ⟨as, r, h, hs⟩ := ih (x :: left)
    cases x with
    | data b => exact exists_split (h.data hs)
    | failure text => exact exists_split (h.failure hs)

end Course

/-- Whenever more is to be read, all that has been read has been handed out but the beginning of a
line that the reader has not settled, however the bytes were cut into reads. With what is held back
a packet may still begin, unless it is overdue. -/
theorem held_back (h : Course max reads as r left) (hs : split? max r = none) :
    (∀ k, answers max (as.length + k) {} reads = as ++ answers max k r left) ∧
    handedOut as ++ r.buffer ++ Read.bytes left = Read.bytes reads ∧
    r.buffer = held max (Bytes.lines (handedOut as ++ r.buffer)).2 ∧
    (r.buffer ≠ [] → (Promising max r.buffer ↔ ¬Overdue max r.buffer)) := by
  refine ⟨h.answers_eq, h.sound.bytes, h.buffer_eq hs, ?_⟩
  intro hb
  rcases split?_eq_none_iff.1 hs with hb' | ⟨-, hn, hu⟩
  · exact absurd hb' hb
  · exact ⟨not_overdue_of_promising, promising_of_not_overdue hn hu⟩

/-- A listing, and a line that begins with a hash. -/
def listing : List Read := [.data [108, 115, 10, 35], .failure "later", .data [32]]

theorem listing_held_back : ∃ as r, Course maxLine listing as r [.failure "later", .data [32]] ∧
    split? maxLine r = none ∧ handedOut as = [108, 115, 10] ∧ r.buffer = [35] ∧
    Promising maxLine r.buffer := by
  have hfirst : Course maxLine listing [] ⟨[108, 115, 10, 35], false⟩ _ := Course.start.data rfl
  have hline : Course maxLine listing _ ⟨[35], false⟩ _ := hfirst.split rfl
  have hnone : split? maxLine ⟨[35], false⟩ = none := rfl
  obtain ⟨-, -, -, hiff⟩ := held_back hline hnone
  refine ⟨_, _, hline, hnone, rfl, rfl, (hiff (by simp)).2 ?_⟩
  simp [Overdue, maxLine, marker]

/-- What begins with the marker and goes on otherwise than a packet is held back all the same. -/
theorem exists_overdue : ∃ as r, Course maxLine [.data (marker ++ [120])] as r [] ∧
    split? maxLine r = none ∧ handedOut as = [] ∧ r.buffer = marker ++ [120] ∧
    ¬Promising maxLine r.buffer := by
  have hread : Course maxLine [.data (marker ++ [120])] [] ⟨marker ++ [120], false⟩ [] :=
    Course.start.data rfl
  refine ⟨_, _, hread, by decide, rfl, rfl, ?_⟩
  intro hp
  exact not_overdue_of_promising hp (.inr ⟨120, [], rfl, .inl (by decide)⟩)

/-- How a reader stands that waits for more: it holds nothing, or stands at the start of a line of
which it holds a part of the marker or, without the newline, as much as a packet may have. -/
inductive Waiting (max : Nat) (r : Reader) : Prop
  | idle (hb : r.buffer = [])
  | short (hm : r.midLine = false) (hb : r.buffer ≠ []) (hp : r.buffer <+: marker)
      (hne : r.buffer ≠ marker)
  | marked (hm : r.midLine = false) (hp : marker <+: r.buffer) (hn : 10 ∉ r.buffer)
      (hle : r.buffer.length ≤ max)

/-- There are no other states in which no chunk is sure. -/
theorem waiting_iff : Waiting max r ↔ split? max r = none := by
  rw [split?_eq_none_iff]
  constructor
  · rintro (hb | ⟨hm, -, hp, hne⟩ | ⟨hm, hp, hn, hle⟩)
    · exact .inl hb
    · have hlt : r.buffer.length < marker.length :=
        Nat.lt_of_not_le fun hle => hne (hp.eq_of_length_le hle)
      exact .inr ⟨hm, fun hn => not_mem_marker (hp.subset hn), .inl ⟨hlt, hp⟩⟩
    · exact .inr ⟨hm, hn, .inr ⟨hp, hle⟩⟩
  · rintro (hb | ⟨hm, hn, ⟨hlt, hp⟩ | ⟨hp, hle⟩⟩)
    · exact .idle hb
    · by_cases hb : r.buffer = []
      · exact .idle hb
      · exact .short hm hb hp fun heq => Nat.lt_irrefl _ (heq ▸ hlt)
    · exact .marked hm hp hn hle

theorem Waiting.length_le (h : Waiting max r) : r.buffer.length ≤ Nat.max 2 max := by
  cases h with
  | idle hb => simp [hb]
  | short _ _ hp hne =>
    have hlt : r.buffer.length < marker.length :=
      Nat.lt_of_not_le fun hle => hne (hp.eq_of_length_le hle)
    exact (Nat.le_of_lt_succ hlt).trans (Nat.le_max_left 2 max)
  | marked _ _ _ hle => exact hle.trans (Nat.le_max_right 2 max)

/-- Whatever a stream brings, in whatever pieces and with whatever failures between them, its
reader comes to every read in one of the few states in which it waits, and so with no more in its
buffer than a line may have; to come there it takes chunk after chunk off a buffer that gets
shorter each time. -/
theorem reads_when_waiting (max : Nat) (reads : List Read) :
    (∀ as r left, Course max reads as r left → split? max r = none →
      (∀ k, answers max (as.length + k) {} reads = as ++ answers max k r left) ∧
      Waiting max r ∧ r.buffer.length ≤ Nat.max 2 max) ∧
    (∀ front left, reads = front ++ left →
      ∃ as r, Course max reads as r left ∧ split? max r = none) ∧
    (∀ r, Waiting max r ↔ split? max r = none) ∧
    ∀ r d s, split? max r = some (d, s) → s.buffer.length < r.buffer.length := by
  refine ⟨?_, ?_, fun r => waiting_iff, fun r d s hs => (split?_remaining hs []).2.2⟩
  · intro as r left h hs
    have hwaiting : Waiting max r := waiting_iff.2 hs
    exact ⟨h.answers_eq, hwaiting, hwaiting.length_le⟩
  · rintro front left rfl
    exact Course.exists_pause max front left

theorem listing_when_waiting : ∃ as r,
    Course maxLine listing as r [.failure "later", .data [32]] ∧ r.buffer = [35] ∧
      Waiting maxLine r ∧ r.buffer.length ≤ Nat.max 2 maxLine ∧
      r.buffer.length < [108, 115, 10, 35].length := by
  obtain ⟨hwaiting, -, -, hshorter⟩ := reads_when_waiting maxLine listing
  have hfirst : Course maxLine listing [] ⟨[108, 115, 10, 35], false⟩ _ := Course.start.data rfl
  have hsplit : split? maxLine ⟨[108, 115, 10, 35], false⟩ =
    some (.raw [108, 115, 10], ⟨[35], false⟩) := rfl
  obtain ⟨-, hw, hle⟩ := hwaiting _ _ _ (hfirst.split hsplit) rfl
  exact ⟨_, _, hfirst.split hsplit, rfl, hw, hle, hshorter _ _ _ hsplit⟩

end Reader

end Switchboard.Packet
