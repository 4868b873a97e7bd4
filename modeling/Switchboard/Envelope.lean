import Switchboard.Error
import Switchboard.Json.Printer
import Switchboard.Json.Reader
import Switchboard.MessagePack.Reader
import Switchboard.MessagePack.Writer

/-! Envelopes, the unit that routes exchange, and their two wire forms. -/
namespace Switchboard

/-- What is sent from route to route; only the routing fields matter on its way. -/
structure Envelope where
  /-- Name of the command; absent on responses. -/
  command : Option String := none
  /-- Set when the sender expects a response. -/
  requestId : Option String := none
  /-- Id of the request that this answers. -/
  responseId : Option String := none
  /-- Time to wait for the response, in milliseconds. -/
  timeout : Option UInt64 := none
  /-- Destination; absent for the default route. -/
  route : Option String := none
  /-- Token of the connection that sent this. -/
  authToken : Option String := none
  source : Option String := none
  /-- More responses to the same request follow. -/
  more : Bool := false
  /-- Gives up a request. -/
  cancel : Bool := false
  error : Option String := none
  data : Option Value := none
deriving Repr, Inhabited

namespace Envelope

/-- The fields in the order they are written. -/
def layout : Layout Envelope where
  title := "struct Envelope"
  fields := [
    .text "command" command fun s e => { e with command := s },
    .text "reqid" requestId fun s e => { e with requestId := s },
    .text "resid" responseId fun s e => { e with responseId := s },
    .count "timeout" timeout fun n e => { e with timeout := n },
    .text "route" route fun s e => { e with route := s },
    .text "authtoken" authToken fun s e => { e with authToken := s },
    .text "source" source fun s e => { e with source := s },
    .flag "cont" more fun b e => { e with more := b },
    .flag "cancel" cancel fun b e => { e with cancel := b },
    .text "error" error fun s e => { e with error := s },
    .data "data" data fun v e => { e with data := v }]
  blank := {}

def toJson (e : Envelope) : Bytes := Json.renderRecord layout e

def ofJson (b : Bytes) : Except WireError Envelope :=
  (Json.readRecord layout b).mapError .json

def toMessagePack (e : Envelope) : Bytes := MessagePack.writeRecord layout e

def ofMessagePack (b : Bytes) : Except WireError Envelope :=
  match MessagePack.readRecord? layout b with
  | some e => .ok e
  | none => .error .messagePack

/-- The response to a request, addressed back to its source. -/
def response (request : Envelope) (data : Option Value) : Envelope :=
  { responseId := request.requestId, route := request.source, data }

/-- The response that tells of a failure. -/
def failure (request : Envelope) (text : String) : Envelope :=
  { responseId := request.requestId, route := request.source, error := some text }

/-- Whether this asks for something to be done. -/
def isCommand (e : Envelope) : Bool :=
  match e.command with
  | some name => name != ""
  | none => false

/-- Whether this answers an earlier request. -/
def isResponse (e : Envelope) : Bool := !e.isCommand && e.responseId.isSome

end Switchboard.Envelope
