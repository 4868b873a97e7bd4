import Switchboard.Proofs.Envelope
import Switchboard.Proofs.Packet.Received

/-! Packets between other text: what is written to a stream item by item is received on the other
side, the envelopes in one queue and the text in the other. -/
namespace Switchboard.Packet

variable {e : Envelope} {b c l rest : Bytes}

/-- The text of an envelope is an object on one line, so that no envelope is refused. -/
theorem encode_eq (e : Envelope) : encode e = .ok (marker ++ e.toJson ++ [10]) := by
  have hobject : Reader.isObject e.toJson = true := by
    simp [Reader.isObject, e.head?_toJson, e.getLast?_toJson]
  have hline : 10 ∉ e.toJson := fun h => absurd (e.controlFree_toJson 10 h) (by decide)
  simp [encode, lineOf, hobject, hline]

/-- An envelope that a line has room for and whose data the reader can give back. -/
structure Carried (e : Envelope) : Prop where
  notNull : e.data ≠ some .null
  wellFormed : ∀ v, e.data = some v → v.wellFormed = true
  doubleFree : ∀ v, e.data = some v → v.doubleFree = true
  /-- The data are one level inside the envelope's own object. -/
  depth : ∀ v, e.data = some v → v.depth + 1 < 128
  short : (marker ++ e.toJson).length < maxLine

theorem Carried.ofJson_toJson (h : Carried e) : Envelope.ofJson e.toJson = .ok e := by
  have hfits : ∀ v, e.data = some v → v.Fits (Json.maxDepth - 1) := by
    intro v hv
    have hdepth := h.depth v hv
    refine ⟨?_, h.wellFormed v hv, h.doubleFree v hv⟩
    simp only [Json.maxDepth]
    omega
  rw [Envelope.ofJson_toJson hfits, present_eq_self h.notNull]

/-- The line of a packet stands for its text, whatever stands behind it. -/
theorem grammar_packet (h : (marker ++ e.toJson).length < maxLine) (rest : Bytes) :
    grammar maxLine (marker ++ e.toJson ++ [10] ++ rest)
      = .packet e.toJson :: grammar maxLine rest := by
  have hline : 10 ∉ marker ++ e.toJson := by
    rw [List.mem_append, not_or]
    exact ⟨not_mem_marker, fun h => absurd (e.controlFree_toJson 10 h) (by decide)⟩
  have hchunk : lineChunk maxLine (marker ++ e.toJson) = .packet e.toJson := by
    simpa [lineChunk, e.head?_toJson, e.getLast?_toJson] using h
  rw [List.append_assoc, List.singleton_append, grammar_newline hline, hchunk]

/-- Other text, in which no line starts with the marker. -/
def Unmarked (b : Bytes) : Prop :=
  (∀ l ∈ (Bytes.lines b).1, ¬marker <+: l) ∧ ¬marker <+: (Bytes.lines b).2

/-- Other text stands for itself. What stands behind it begins a line of its own if there is
anything and the text ends its last line. -/
theorem Unmarked.grammar_append (h : Unmarked b) (hc : c ≠ [] → b = [] ∨ b.getLast? = some 10) :
    ∃ bs : List Bytes, bs.flatten = b ∧
      grammar maxLine (b ++ c) = bs.map .raw ++ grammar maxLine c := by
  induction b using Bytes.line_induction with
  | tail b hb =>
    by_cases he : b = []
    · exact ⟨[], by simp [he], by simp [he]⟩
    · have hcnil : c = [] := by
        by_contra hne
        rcases hc hne with h' | h'
        · exact he h'
        · exact hb (List.mem_of_getLast? h')
      have htail : ¬marker <+: b := by simpa [Bytes.lines_of_not_mem hb] using h.2
      refine ⟨[b], by simp, ?_⟩
      simp [hcnil, grammar_tail hb, tailChunks, he, htail]
  | line l rest hl ih =>
    rw [Unmarked, Bytes.lines_newline hl] at h
    obtain ⟨hlines, htail⟩ := h
    have hrest : Unmarked rest := ⟨fun l hl => hlines l (by simp [hl]), htail⟩
    have hended : c ≠ [] → rest = [] ∨ rest.getLast? = some 10 := by
      intro hne
      by_cases hr : rest = []
      · exact .inl hr
      · have hlast : rest.getLast?.getD 10 = 10 := by
          simpa [List.getLast?_append, List.getLast?_cons] using hc hne
        rw [List.getLast?_eq_some_getLast hr] at hlast ⊢
        exact .inr (congrArg some hlast)
    obtain ⟨bs, hbs, hgrammar⟩ := ih hrest hended
    have hraw : lineChunk maxLine l = .raw (l ++ [10]) := by
      simp [lineChunk, hlines l (by simp)]
    refine ⟨(l ++ [10]) :: bs, by simp [hbs], ?_⟩
    rw [List.append_assoc, List.cons_append, grammar_newline hl, hraw, hgrammar]
    rfl

/-- What is written to a stream: an envelope as a packet line, or other text as it is. -/
inductive Item where
  | envelope (e : Envelope)
  | text (b : Bytes)

namespace Item

def envelope? : Item → Option Envelope
  | .envelope e => some e
  | .text _ => none

/-- The other text of an item. -/
def raw : Item → Bytes
  | .envelope _ => []
  | .text b => b

def write : Item → Except WireError Bytes
  | .envelope e => encode e
  | .text b => .ok b

/-- The bytes of several items, one after the other. -/
def writeAll : List Item → Except WireError Bytes
  | [] => .ok []
  | i :: items => do
    let b ← i.write
    let rest ← writeAll items
    return b ++ rest

def Sound : Item → Prop
  | .envelope e => Carried e
  | .text b => Unmarked b

/-- What follows begins a line of its own. -/
def Ended : Item → Prop
  | .envelope _ => True
  | .text b => b = [] ∨ b.getLast? = some 10

/-- What is written stands for the items, however much other text is cut up. -/
theorem writeAll_grammar (items : List Item) (hsound : ∀ i ∈ items, i.Sound)
    (hended : ∀ i ∈ items.dropLast, i.Ended) :
    ∃ stream, writeAll items = .ok stream ∧
      envelopesOf (grammar maxLine stream) = items.filterMap envelope? ∧
      textOf (grammar maxLine stream) = items.flatMap raw := by
  induction items with
  | nil => exact ⟨[], rfl, by simp [envelopesOf], by simp [textOf]⟩
  | cons i items ih =>
    have hended' : ∀ j ∈ items.dropLast, j.Ended := by
      intro j hj
      have hitems : items ≠ [] := by
        rintro rfl
        simp at hj
      exact hended j (by simp [List.dropLast_cons_of_ne_nil hitems, hj])
    obtain ⟨stream, hwrite, henvelopes, htext⟩ := ih (fun j hj => hsound j (by simp [hj])) hended'
    have hi := hsound i (by simp)
    cases i with
    | envelope e =>
      have hcarried : Carried e := hi
      refine ⟨marker ++ e.toJson ++ [10] ++ stream, ?_, ?_, ?_⟩
      · simp [writeAll, write, encode_eq, hwrite]
      · rw [grammar_packet hcarried.short]
        simp [envelopesOf_cons, Chunk.envelope?, hcarried.ofJson_toJson, Except.toOption,
          henvelopes, envelope?]
      · rw [grammar_packet hcarried.short]
        simp [textOf_cons, Chunk.text?, htext, raw]
    | text b =>
      have hb : stream ≠ [] → b = [] ∨ b.getLast? = some 10 := by
        intro hne
        have hitems : items ≠ [] := by
          rintro rfl
          cases hwrite
          exact hne rfl
        exact hended (.text b) (by simp [List.dropLast_cons_of_ne_nil hitems])
      obtain ⟨bs, hbs, hgrammar⟩ := Unmarked.grammar_append hi hb
      refine ⟨b ++ stream, ?_, ?_, ?_⟩
      · simp [writeAll, write, hwrite]
      · simp [hgrammar, envelopesOf_append, envelopesOf_map_raw, henvelopes, List.filterMap_cons,
          envelope?]
      · simp [hgrammar, textOf_append, textOf_map_raw, htext, hbs, raw]

end Item

/-- No envelope is refused. What is written item by item is received item by item, however the
bytes are cut into reads: the envelopes unchanged and in order, and all other text as it was. Whoever
has gone misses what is theirs, and nobody else notices. -/
theorem written_received {items : List Item} (hsound : ∀ i ∈ items, i.Sound)
    (hended : ∀ i ∈ items.dropLast, i.Ended) :
    (∀ e, encode e = .ok (marker ++ e.toJson ++ [10])) ∧
    ∃ stream, Item.writeAll items = .ok stream ∧
      ∀ reads, Read.failures reads = [] → Read.bytes reads = stream →
        contents reads = ⟨items.filterMap Item.envelope?, items.flatMap Item.raw, .ok ()⟩ ∧
        ∀ forEnvelopes forText,
          received ⟨{ isOpen := forEnvelopes }, { isOpen := forText }⟩ reads =
            ⟨if forEnvelopes then items.filterMap Item.envelope? else [],
              if forText then items.flatMap Item.raw else [], .ok ()⟩ := by
  obtain ⟨stream, hwrite, henvelopes, htext⟩ := Item.writeAll_grammar items hsound hended
  refine ⟨encode_eq, stream, hwrite, fun reads hreads hbytes => ?_⟩
  have hreceived := received_eq hreads
  rw [hbytes, henvelopes, htext] at hreceived
  exact ⟨hreceived true true, hreceived⟩

/-- A request with a marker, a quote and a newline in its data. -/
def trickyRequest : Envelope :=
  { command := some "ping", requestId := some "7",
    data := some (.object [("a", .array [.int (-5), .string "##N\x7b\"\n\x7d"])]) }

/-- The request between a line of other text and the beginning of another. -/
def trickyItems : List Item :=
  [.text [36, 32, 108, 115, 10], .envelope trickyRequest, .text [35, 35]]

theorem tricky_request_received :
    ∃ stream, Item.writeAll trickyItems = .ok stream ∧
      contents [.data (stream.take 7), .data [], .data (stream.drop 7)] =
        ⟨[trickyRequest], [36, 32, 108, 115, 10, 35, 35], .ok ()⟩ := by
  have hcarried : Carried trickyRequest := by
    refine ⟨by simp [trickyRequest], ?_, ?_, ?_, by decide +kernel⟩
    all_goals
      intro v hv
      cases hv
      decide
  have hsound : ∀ i ∈ trickyItems, i.Sound := by
    simp [trickyItems, Item.Sound, hcarried, Unmarked, Bytes.lines, marker]
  obtain ⟨-, stream, hwrite, hall⟩ := written_received hsound (by simp [trickyItems, Item.Ended])
  exact ⟨stream, hwrite, (hall _ rfl (by simp)).1⟩

end Switchboard.Packet
