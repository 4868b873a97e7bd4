import Mathlib
import Switchboard.Packet.Line

/-! The line grammar of a stream: what a whole stream stands for, and when two lists of chunks
stand for the same. Nothing here depends on how the stream is read. -/
namespace Switchboard

namespace Bytes

variable {b c l line rest : Bytes}

/-- The lines that end, without their newlines, and what stands behind the last newline. -/
def lines : Bytes → List Bytes × Bytes
  | [] => ([], [])
  | x :: rest =>
    let (ls, tail) := lines rest
    if x = 10 then ([] :: ls, tail)
    else
      match ls with
      | [] => ([], x :: tail)
      | l :: ls => ((x :: l) :: ls, tail)

theorem lines_of_not_mem (h : 10 ∉ b) : lines b = ([], b) := by
  induction b with
  | nil => rfl
  | cons x b ih =>
    obtain ⟨hx, hb⟩ : 10 ≠ x ∧ 10 ∉ b := by simpa using h
    simp [lines, ih hb, Ne.symm hx]

theorem lines_newline (h : 10 ∉ l) (rest : Bytes) :
    lines (l ++ 10 :: rest) = (l :: (lines rest).1, (lines rest).2) := by
  induction l with
  | nil => simp [lines]
  | cons x l ih =>
    obtain ⟨hx, hl⟩ : 10 ≠ x ∧ 10 ∉ l := by simpa using h
    simp [lines, ih hl, Ne.symm hx]

theorem splitLine?_eq_none_iff : splitLine? b = none ↔ 10 ∉ b := by
  induction b with
  | nil => simp [splitLine?]
  | cons x b ih =>
    by_cases hx : x = 10
    · simp [splitLine?, hx]
    · simp [splitLine?, hx, ih, Ne.symm hx]

theorem splitLine?_newline (h : 10 ∉ l) (rest : Bytes) :
    splitLine? (l ++ 10 :: rest) = some (l ++ [10], rest) := by
  induction l with
  | nil => simp [splitLine?]
  | cons x l ih =>
    obtain ⟨hx, hl⟩ : 10 ≠ x ∧ 10 ∉ l := by simpa using h
    simp [splitLine?, ih hl, Ne.symm hx]

/-- Some bytes are one unfinished line, or a line and what follows it. -/
theorem line_cases (b : Bytes) : 10 ∉ b ∨ ∃ l rest, 10 ∉ l ∧ b = l ++ 10 :: rest := by
  by_cases h : 10 ∈ b
  · obtain ⟨l, rest, rfl, hl⟩ := List.eq_append_cons_of_mem h
    exact .inr ⟨l, rest, hl, rfl⟩
  · exact .inl h

/-- Whatever holds of an unfinished line, and of a line with what follows it if it holds of that,
holds of all bytes. -/
@[elab_as_elim]
theorem line_induction {motive : Bytes → Prop} (tail : ∀ b, 10 ∉ b → motive b)
    (line : ∀ l rest, 10 ∉ l → motive rest → motive (l ++ 10 :: rest)) (b : Bytes) : motive b := by
  induction hn : b.length using Nat.strongRecOn generalizing b with
  | ind n ih =>
    obtain hb | ⟨l, rest, hl, rfl⟩ := line_cases b
    · exact tail b hb
    · have hlt : rest.length < n := by
        simp at hn
        omega
      exact line l rest hl (ih _ hlt rest rfl)

theorem not_mem_unfinished (b : Bytes) : 10 ∉ (lines b).2 := by
  induction b using line_induction with
  | tail b hb => simpa [lines_of_not_mem hb] using hb
  | line l rest hl ih => simpa [lines_newline hl] using ih

/-- What comes in lengthens the unfinished line. -/
theorem unfinished_append (b c : Bytes) :
    (lines (b ++ c)).2 = (lines ((lines b).2 ++ c)).2 := by
  induction b using line_induction with
  | tail b hb => rw [lines_of_not_mem hb]
  | line l rest hl ih => simpa [lines_newline hl] using ih

theorem unfinished_of_not_mem (h : 10 ∉ c) : (lines (b ++ c)).2 = (lines b).2 ++ c := by
  have hn : 10 ∉ (lines b).2 ++ c := by simp [not_mem_unfinished b, h]
  rw [unfinished_append, lines_of_not_mem hn]

theorem unfinished_newline (b c : Bytes) : (lines (b ++ 10 :: c)).2 = (lines c).2 := by
  rw [unfinished_append, lines_newline (not_mem_unfinished b)]

end Bytes

namespace Packet

variable {max : Nat} {b c l t rest : Bytes} {cs ds : List Chunk} {d : Chunk}

/-- What a line stands for, its newline left out. -/
def lineChunk (max : Nat) (l : Bytes) : Chunk :=
  let body := l.drop marker.length
  if marker <+: l ∧ l.length < max ∧ body.head? = some 123 ∧ body.getLast? = some 125 then
    .packet body
  else .raw (l ++ [10])

/-- The end of a stream that is dropped: the beginning of a packet. -/
def lostTail (max : Nat) (t : Bytes) : Bytes := if marker <+: t ∧ t.length ≤ max then t else []

/-- What the unfinished line at the end of a stream stands for. -/
def tailChunks (max : Nat) (t : Bytes) : List Chunk :=
  if t = [] ∨ (marker <+: t ∧ t.length ≤ max) then [] else [.raw t]

/-- The chunks of a whole stream, line by line. -/
def grammar (max : Nat) (b : Bytes) : List Chunk :=
  (Bytes.lines b).1.map (lineChunk max) ++ tailChunks max (Bytes.lines b).2

/-- The same chunks with neighbouring pieces of other text put together. -/
def joined : List Chunk → List Chunk
  | [] => []
  | .packet b :: cs => .packet b :: joined cs
  | .raw b :: cs =>
    match joined cs with
    | .raw c :: ds => .raw (b ++ c) :: ds
    | ds => .raw b :: ds

/-- The bytes of the stream that a chunk was made of. -/
def Chunk.source : Chunk → Bytes
  | .packet b => marker ++ b ++ [10]
  | .raw b => b

theorem grammar_newline (h : 10 ∉ l) (rest : Bytes) :
    grammar max (l ++ 10 :: rest) = lineChunk max l :: grammar max rest := by
  simp [grammar, Bytes.lines_newline h]

theorem grammar_tail (h : 10 ∉ t) : grammar max t = tailChunks max t := by
  simp [grammar, Bytes.lines_of_not_mem h]

@[simp] theorem grammar_nil : grammar max [] = [] := by
  simp [grammar, Bytes.lines, tailChunks]

theorem joined_cons (d : Chunk) (h : joined cs = joined ds) : joined (d :: cs) = joined (d :: ds) := by
  cases d <;> simp [joined, h]

theorem joined_raw_raw (b c : Bytes) (cs : List Chunk) :
    joined (.raw b :: .raw c :: cs) = joined (.raw (b ++ c) :: cs) := by
  simp only [joined]
  cases joined cs with
  | nil => rfl
  | cons d ds => cases d <;> simp

/-- Whatever adds up over chunks is the same for chunks that stand for the same. -/
theorem flatMap_joined {α : Type} (f : Chunk → List α)
    (hf : ∀ b c, f (.raw (b ++ c)) = f (.raw b) ++ f (.raw c)) (cs : List Chunk) :
    (joined cs).flatMap f = cs.flatMap f := by
  induction cs with
  | nil => rfl
  | cons d cs ih =>
    cases d with
    | packet b => simp [joined, ih]
    | raw b =>
      simp only [List.flatMap_cons, ← ih, joined]
      split
      · rename_i c ds hc
        simp [hc, hf]
      · simp

theorem source_joined (cs : List Chunk) :
    (joined cs).flatMap Chunk.source = cs.flatMap Chunk.source :=
  flatMap_joined _ (fun _ _ => rfl) cs

theorem source_lineChunk (max : Nat) (l : Bytes) : (lineChunk max l).source = l ++ [10] := by
  simp only [lineChunk]
  split
  · rename_i h
    obtain ⟨s, rfl⟩ := h.1
    simp [Chunk.source]
  · rfl

theorem source_tailChunks (max : Nat) (t : Bytes) :
    (tailChunks max t).flatMap Chunk.source ++ lostTail max t = t := by
  unfold tailChunks lostTail
  by_cases hm : marker <+: t ∧ t.length ≤ max
  · simp [hm]
  · by_cases ht : t = []
    · simp [ht]
    · simp [hm, ht, Chunk.source]

/-- The chunks of a stream are made of all its bytes but those of a packet that is cut off. -/
theorem source_grammar (max : Nat) (b : Bytes) :
    (grammar max b).flatMap Chunk.source ++ lostTail max (Bytes.lines b).2 = b := by
  induction b using Bytes.line_induction with
  | tail b hb =>
    rw [grammar_tail hb, Bytes.lines_of_not_mem hb]
    exact source_tailChunks max b
  | line l rest hl ih =>
    rw [grammar_newline hl, Bytes.lines_newline hl]
    simp [source_lineChunk, ih]

end Packet

end Switchboard
