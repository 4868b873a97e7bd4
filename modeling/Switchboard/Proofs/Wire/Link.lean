import Switchboard.Proofs.Json.Depth
import Switchboard.Proofs.MessagePack.Accepted
import Switchboard.Proofs.Packet.Interleaving
import Switchboard.Proofs.Wire.MessagePack

/-! What comes in a frame goes on as a packet: the text format carries what the binary format
accepts, up to its own limit of nesting. -/
namespace Switchboard

namespace Envelope

variable {e e' : Envelope} {b : Bytes}

theorem wellFormed_of_ofMessagePack (h : ofMessagePack b = .ok e) (hdf : e.DoubleFree) :
    e.WellFormed := by
  have hread : MessagePack.readRecord? layout b = some e := by
    unfold ofMessagePack at h
    split at h
    · cases h
      assumption
    · cases h
  have hsound : MessagePack.SoundData e.data := by
    refine MessagePack.readRecord?_keeps (P := fun e => MessagePack.SoundData e.data)
      (layout_keeps _) hread ?_
    simp [layout, MessagePack.SoundData]
  exact fun v hv => (hsound v hv (hdf v hv)).wellFormed

/-- Text that is read back was not nested deeper than the reader allows. -/
theorem nesting_lt_of_ofJson (hwf : e.WellFormed) (hdf : e.DoubleFree)
    (h : ofJson e.toJson = .ok e') : e.nesting < 128 := by
  have hfits := fits_of_nesting hwf hdf (Nat.le_succ e.nesting)
  have hsound : ∀ m ∈ layout.entries e, m.2.wellFormed = true ∧ m.2.doubleFree = true :=
    fun m hm => ⟨(fits_of_mem_entries hfits hm).wellFormed, (fits_of_mem_entries hfits hm).doubleFree⟩
  have hdepth := Json.depth_le_of_readRecord layout_distinct hsound (readRecord_of_ofJson h)
  exact Nat.succ_lt_succ (Nat.lt_succ_of_le (Value.depthOfMembers_le hdepth))

/-- What becomes of the text of an envelope: it is the envelope's, or is no envelope at all. -/
theorem toOption_ofJson_toJson (hwf : e.WellFormed) (hdf : e.DoubleFree) :
    (ofJson e.toJson).toOption =
      if e.nesting < 128 then some { e with data := present e.data } else none := by
  split_ifs with hn
  · rw [ofJson_toJson (fits_of_nesting hwf hdf (Nat.le_of_lt_succ hn))]
    rfl
  · cases h : ofJson e.toJson with
    | error err => rfl
    | ok e' => exact absurd (nesting_lt_of_ofJson hwf hdf h) hn

end Envelope

namespace Packet

variable {e : Envelope} {body : Bytes}

/-- A line without failures holds one packet and no other text. -/
theorem contents_of_line (h : (marker ++ e.toJson).length < maxLine) {reads : List Read}
    (hreads : Read.failures reads = []) (hbytes : Read.bytes reads = marker ++ e.toJson ++ [10]) :
    contents reads = ⟨(Envelope.ofJson e.toJson).toOption.toList, [], .ok ()⟩ := by
  have hreceived := received_eq hreads true true
  have hline := grammar_packet h []
  rw [List.append_nil, grammar_nil] at hline
  rw [hbytes, hline, envelopesOf_cons] at hreceived
  simpa [contents, envelopesOf, textOf, Chunk.envelope?, Chunk.text?] using hreceived

/-- An envelope that a frame brought is sent on as one line, which is received on the other side
as that envelope, however it is cut into reads. But data that are null are absent then, and where
the envelope is nested deeper than the text format allows the line is passed over. -/
theorem accepted_relayed (h : Envelope.ofMessagePack body = .ok e) (hdf : e.DoubleFree)
    (hshort : (marker ++ e.toJson).length < maxLine) :
    ∃ line, encode e = .ok line ∧
      ∀ reads, Read.failures reads = [] → Read.bytes reads = line →
        contents reads =
          ⟨if e.nesting < 128 then [{ e with data := present e.data }] else [], [], .ok ()⟩ := by
  refine ⟨_, encode_eq e, fun reads hreads hbytes => ?_⟩
  have hwf := Envelope.wellFormed_of_ofMessagePack h hdf
  rw [contents_of_line hshort hreads hbytes, Envelope.toOption_ofJson_toJson hwf hdf]
  split_ifs <;> rfl

/-- The frame body of an envelope whose data are an infinite double. -/
def endlessBody : Bytes := [0x81, 0xa4, 0x64, 0x61, 0x74, 0x61, 0xcb, 0x7f, 0xf0, 0, 0, 0, 0, 0, 0]

theorem strained_relayed :
    (∃ line, encode Envelope.strained = .ok line ∧
      contents [.data (line.take 9), .data (line.drop 9)] =
        ⟨[Envelope.strained], [], .ok ()⟩) ∧
      ∃ line, encode { data := some .null } = .ok line ∧ contents [.data line] = ⟨[{}], [], .ok ()⟩ := by
  have hdf : Envelope.strained.DoubleFree := by
    rintro v ⟨⟩
    decide
  have hwf : Envelope.strained.WellFormed := by
    rintro v ⟨⟩
    decide
  have hstrained := Envelope.ofMessagePack_toMessagePack
    (Envelope.fits_of_nesting hwf hdf (by decide)) (by decide +kernel) []
  have hendless : Envelope.ofMessagePack endlessBody = .ok { data := some .null } := by cbv
  obtain ⟨line, hline, hall⟩ := accepted_relayed hstrained hdf (by decide +kernel)
  obtain ⟨line', hline', hall'⟩ := accepted_relayed hendless
    (by rintro v ⟨⟩; decide) (by decide +kernel)
  exact ⟨⟨line, hline, hall _ rfl (by simp)⟩, line', hline', hall' _ rfl (by simp)⟩

/-- An empty list inside so many others. -/
def nested : Nat → Value
  | 0 => .array []
  | n + 1 => .array [nested n]

/-- An envelope whose data are 127 lists inside one another. -/
def deep : Envelope := { data := some (nested 126) }

/-- The frame body of this envelope. -/
def deepBody : Bytes :=
  [0x81, 0xa4, 0x64, 0x61, 0x74, 0x61] ++ List.replicate 126 0x91 ++ [0x90]

/-- The packet line of this envelope. -/
def deepLine : Bytes :=
  Bytes.ofText "##N\x7b\"data\":" ++ List.replicate 127 91 ++ List.replicate 127 93 ++ [125, 10]

theorem deep_line_passed_over :
    Envelope.ofMessagePack deepBody = .ok deep ∧ deep.DoubleFree ∧ deepLine.length < maxLine ∧
      encode deep = .ok deepLine ∧ contents [.data deepLine] = ⟨[], [], .ok ()⟩ := by
  have hdf : deep.DoubleFree := by
    rintro v ⟨⟩
    decide +kernel
  have hwf : deep.WellFormed := by
    rintro v ⟨⟩
    decide +kernel
  have hbody : deep.toMessagePack ++ [] = deepBody := by decide +kernel
  have hline : marker ++ deep.toJson ++ [10] = deepLine := by decide +kernel
  have hread := Envelope.ofMessagePack_toMessagePack
    (Envelope.fits_of_nesting hwf hdf (by decide +kernel)) (by decide +kernel) []
  have hshort : (marker ++ deep.toJson).length < maxLine := by decide +kernel
  refine ⟨hbody ▸ hread, hdf, by decide +kernel, hline ▸ encode_eq deep, ?_⟩
  · have hcontents : contents [.data deepLine] = _ := contents_of_line hshort rfl (by simp [hline])
    rw [hcontents, Envelope.toOption_ofJson_toJson hwf hdf, if_neg (by decide +kernel)]
    rfl

end Packet

end Switchboard
