import Switchboard.Duration
import Switchboard.Json.Fault

/-! What can go wrong, on the wire and behind it. -/
namespace Switchboard

/-- Errors of the wire formats. -/
inductive WireError where
  | serialization (text : String)
  | invalidFrame
  | frameTooLarge (size max : Nat)
  | invalidPacket (text : String)
  | invalidCommandData (command text : String)
  /-- The stream itself failed. -/
  | stream (text : String)
deriving DecidableEq, Repr

namespace WireError

/-- A text that is not the JSON of what was wanted. -/
def json (fault : Json.Fault) : WireError := .serialization ("JSON error: " ++ fault.text)

/-- Bytes that are not the MessagePack of what was wanted. -/
def messagePack : WireError := .serialization "MessagePack decode error"

def text : WireError → String
  | .serialization text => "Serialization error: " ++ text
  | .invalidFrame => "Invalid frame format"
  | .frameTooLarge size max =>
    "Frame too large: " ++ toString size ++ " bytes (max: " ++ toString max ++ ")"
  | .invalidPacket text => "Invalid packet: " ++ text
  | .invalidCommandData command text =>
    "Invalid data for command " ++ command ++ ": " ++ text
  | .stream text => "I/O error: " ++ text

/-- Whether the stream failed rather than what it carries. -/
def isStream : WireError → Bool
  | .stream _ => true
  | _ => false

end WireError

/-- Errors of routing, admission and startup. -/
inductive Error where
  /-- A token is missing, invalid, not accepted, or was not presented in time. -/
  | auth (text : String)
  /-- No destination is found, or it is closed. -/
  | routing (text : String)
  /-- A single connection failed. -/
  | transport (text : String)
  | listener (text : String)
  | config (text : String)
  /-- A command failed where it was handled. -/
  | handler (text : String)
  | timeout (after : Duration)
  | wire (cause : WireError)
  | stream (text : String)
deriving DecidableEq, Repr

namespace Error

def text : Error → String
  | .auth text => "Authentication error: " ++ text
  | .routing text => "Routing error: " ++ text
  | .transport text => "Transport error: " ++ text
  | .listener text => "Listener error: " ++ text
  | .config text => "Configuration error: " ++ text
  | .handler text => "Handler error: " ++ text
  | .timeout after => "Timeout after " ++ after.text
  | .wire cause => "Protocol error: " ++ cause.text
  | .stream text => "I/O error: " ++ text

/-- Whether the process cannot go on. -/
def isFatal : Error → Bool
  | .listener _ | .config _ => true
  | _ => false

end Error

end Switchboard
