import Switchboard.Proofs.MessagePack.Record
import Switchboard.Proofs.Wire.Json

/-! MessagePack and envelopes: writing loses nothing, and what follows is left alone. -/
namespace Switchboard.Envelope

/-- The greatest length of a text or a container among all that is written of an envelope. -/
def longest (e : Envelope) : Nat := (Value.object (layout.entries e)).longest

/-- Reading gives the envelope back that was written, but data that are null count as absent. -/
theorem ofMessagePack_toMessagePack {e : Envelope}
    (h : ∀ v, e.data = some v → v.Fits (MessagePack.maxDepth - 1)) (hl : e.longest < 2 ^ 32)
    (rest : Bytes) :
    ofMessagePack (e.toMessagePack ++ rest) = .ok { e with data := present e.data } := by
  have hread := MessagePack.readRecord?_write layout_distinct (fun m => fits_of_mem_entries h) hl rest
  rw [ofMessagePack, toMessagePack, hread, reread_eq]

/-- Envelopes come back from their bytes as they were, whatever follows, but for data that are null,
which come back absent. -/
theorem messagePack_restores {e : Envelope} (hwf : e.WellFormed) (hdf : e.DoubleFree)
    (hn : e.nesting < 1024) (hl : e.longest < 2 ^ 32) (rest : Bytes) :
    ofMessagePack (e.toMessagePack ++ rest) = .ok { e with data := present e.data } :=
  ofMessagePack_toMessagePack (fits_of_nesting hwf hdf (Nat.le_of_lt_succ hn)) hl rest

theorem strained_restored :
    ofMessagePack (strained.toMessagePack ++ strained.toMessagePack) = .ok strained ∧
      ofMessagePack { strained with data := some .null }.toMessagePack =
        .ok { strained with data := none } := by
  refine ⟨messagePack_restores ?_ ?_ (by decide) (by decide +kernel) _, ?_⟩
  case refine_3 =>
    rw [← List.append_nil (toMessagePack _)]
    refine messagePack_restores ?_ ?_ (by decide) (by decide +kernel) _
    all_goals
      rintro v ⟨⟩
      decide
  all_goals
    rintro v ⟨⟩
    decide

end Switchboard.Envelope
