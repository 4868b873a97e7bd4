import Switchboard.Command
import Switchboard.Proofs.Wire.MessagePack

/-! Commands and the envelopes that carry them. A command is told by its name and its payload, in
memory and behind both wires, and whatever payload it was read from, it is read from its own. -/
namespace Switchboard

/-- Data that come through a wire as they are, with a limit to the levels of nesting: the envelope
that carries them is one of these. -/
structure Value.Portable (limit : Nat) (v : Value) : Prop where
  present : v ≠ .null
  wellFormed : v.wellFormed = true
  doubleFree : v.doubleFree = true
  depth : v.depth + 1 < limit

namespace Command

variable {c : Command} {name : String} {data : Option Value} {v : Value} {limit : Nat}

/-- The names of the commands that the switchboard itself understands. -/
def reserved : List String :=
  [authenticateName, routeAnnounceName, routeUnannounceName, disposeName]

/-- A command that goes by a reserved name is not carried as it is. -/
def Settled : Command → Prop
  | .other name _ => name ∉ reserved
  | _ => True

/-- A settled command that can be told from none. -/
def Proper (c : Command) : Prop := c.Settled ∧ c.name ≠ ""

/-- The payload of a command that is carried as it is comes through a wire. -/
def Portable (limit : Nat) : Command → Prop
  | .other _ data => ∀ v, data = some v → v.Portable limit
  | _ => True

theorem ofParts_of_not_mem (h : name ∉ reserved) (data : Option Value) :
    ofParts name data = .ok (.other name data) := by
  simp only [reserved, List.mem_cons, List.not_mem_nil, or_false, not_or] at h
  obtain ⟨hauth, hann, hunann, hdisp⟩ := h
  simp only [ofParts, if_neg hauth, if_neg hann, if_neg hunann, if_neg hdisp]

theorem ofParts_name_data (h : c.Settled) : ofParts c.name c.data = .ok c := by
  cases c with
  | authenticate token | routeAnnounce | routeUnannounce | dispose route => rfl
  | other name data => exact ofParts_of_not_mem h data

/-- Whatever name and payload a command was read from, it goes by that name and is settled. -/
theorem settled_of_ofParts (h : ofParts name data = .ok c) : c.name = name ∧ c.Settled := by
  unfold ofParts at h
  split_ifs at h with hauth hann hunann hdisp
  · split at h <;> cases h
    exact ⟨hauth.symm, trivial⟩
  · cases h
    exact ⟨hann.symm, trivial⟩
  · cases h
    exact ⟨hunann.symm, trivial⟩
  · split at h
    · cases h
    · split at h <;> cases h
      exact ⟨hdisp.symm, trivial⟩
  · cases h
    exact ⟨rfl, by simp [Settled, reserved, hauth, hann, hunann, hdisp]⟩

/-- The payloads of the commands that are understood come through every wire. -/
theorem Portable.payload (h : c.Portable limit) (hl : 2 < limit) (hv : c.data = some v) :
    v.Portable limit := by
  cases c with
  | authenticate token =>
    cases hv
    exact ⟨by simp, rfl, rfl, show 0 + 1 < limit by omega⟩
  | routeAnnounce | routeUnannounce => cases hv
  | dispose route =>
    cases hv
    exact ⟨by simp, rfl, rfl, show 1 + 1 < limit by omega⟩
  | other name data => exact h v hv

end Command

namespace Envelope

open Command (ofParts)

variable {c : Command} {v : Value} {limit : Nat}

theorem command?_ofCommand (h : c.Proper) : (ofCommand c).command? = .ok (some c) := by
  have hparts := Command.ofParts_name_data h.1
  simp only [command?, ofCommand, if_neg h.2, hparts, Except.map]

theorem fits_ofCommand (room : Nat) (h : c.Portable (room + 2)) (hr : 0 < room) :
    ∀ v, (ofCommand c).data = some v → v.Fits room := by
  intro v hv
  have hdata := h.payload (by omega) hv
  have hdepth := hdata.depth
  exact ⟨by omega, hdata.wellFormed, hdata.doubleFree⟩

/-- The data of such a command are not taken for absent ones. -/
theorem present_ofCommand (h : c.Portable limit) (hl : 2 < limit) :
    present (ofCommand c).data = (ofCommand c).data :=
  present_eq_self fun hv => (h.payload hl hv).present rfl

theorem ofJson_ofCommand (h : c.Portable 128) :
    ofJson (ofCommand c).toJson = .ok (ofCommand c) := by
  have hread := ofJson_toJson (fits_ofCommand 126 h (by decide))
  rwa [present_ofCommand h (by decide)] at hread

theorem ofMessagePack_ofCommand (h : c.Portable 1024) (hl : (ofCommand c).longest < 2 ^ 32) :
    ofMessagePack (ofCommand c).toMessagePack = .ok (ofCommand c) := by
  have hread := ofMessagePack_toMessagePack (fits_ofCommand 1022 h (by decide)) hl []
  rwa [List.append_nil, present_ofCommand h (by decide)] at hread

/-- A command is told from the envelope made of it, also when that has gone over a wire; MessagePack
has 32 bits for the length of a text. Whatever payload a command was read from, it is read again
from its own name and payload. -/
theorem commands_told :
    (∀ c : Command, c.Proper →
      (ofCommand c).command? = .ok (some c) ∧
      (c.Portable 128 → (ofJson (ofCommand c).toJson).bind command? = .ok (some c)) ∧
      (c.Portable 1024 → (ofCommand c).longest < 2 ^ 32 →
        (ofMessagePack (ofCommand c).toMessagePack).bind command? = .ok (some c))) ∧
    ∀ name data c, ofParts name data = .ok c → c.name = name ∧ ofParts c.name c.data = .ok c := by
  refine ⟨fun c hc => ⟨command?_ofCommand hc, fun h => ?_, fun h hl => ?_⟩, fun name data c h => ?_⟩
  · rw [ofJson_ofCommand h]
    exact command?_ofCommand hc
  · rw [ofMessagePack_ofCommand h hl]
    exact command?_ofCommand hc
  · obtain ⟨hname, hsettled⟩ := Command.settled_of_ofParts h
    exact ⟨hname, Command.ofParts_name_data hsettled⟩

/-- A command that nobody here understands, with data of every kind but doubles. -/
def errand : Command := .other "run" strained.data

/-- The payload of a disposal, with a member that nobody looks at. -/
def parting : Value := .object [("reason", .null), ("routeid", .string "r")]

theorem errand_told :
    errand.Proper ∧ errand.Portable 128 ∧ errand.Portable 1024 ∧
      (ofCommand errand).longest < 2 ^ 32 ∧
      ofParts Command.disposeName (some parting) = .ok (.dispose "r") ∧
      (ofCommand errand).command? = .ok (some errand) ∧
      (ofJson (ofCommand errand).toJson).bind command? = .ok (some errand) ∧
      (ofMessagePack (ofCommand errand).toMessagePack).bind command? = .ok (some errand) ∧
      ofParts (Command.dispose "r").name (Command.dispose "r").data = .ok (.dispose "r") := by
  obtain ⟨htold, hagain⟩ := commands_told
  have hproper : errand.Proper :=
    ⟨show "run" ∉ Command.reserved by decide, show "run" ≠ "" by decide⟩
  have hportable (limit : Nat) (h : 3 < limit) : errand.Portable limit := by
    rintro v ⟨⟩
    exact ⟨by simp, by decide, by decide, show 2 + 1 < limit by omega⟩
  have hlong : (ofCommand errand).longest < 2 ^ 32 := by decide +kernel
  have hparting : ofParts Command.disposeName (some parting) = .ok (.dispose "r") := by rfl
  obtain ⟨hplain, hjson, hpack⟩ := htold errand hproper
  exact ⟨hproper, hportable 128 (by decide), hportable 1024 (by decide), hlong, hparting, hplain,
    hjson (hportable 128 (by decide)), hpack (hportable 1024 (by decide)) hlong,
    (hagain _ _ _ hparting).2⟩

end Envelope

end Switchboard
