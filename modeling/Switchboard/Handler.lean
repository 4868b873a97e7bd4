import Switchboard.Envelope
import Switchboard.Identity
import Switchboard.Outcome

/-! What stands behind a service: it handles commands and learns of routes that are gone. -/
namespace Switchboard

/-- How a command was handled, and how long that takes. -/
structure Reply where
  outcome : Outcome (Option Value)
  after : Duration := ⟨0⟩

/-- A handler with a state of type `σ`. -/
structure Handler (σ : Type) where
  /-- Handles a command at a time of day. -/
  handle : σ → Duration → Identity → Envelope → σ × Reply
  /-- Releases what is kept for a route. -/
  dispose : σ → String → σ

end Switchboard
