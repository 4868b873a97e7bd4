import Switchboard.Envelope

/-! The commands that the switchboard itself understands. -/
namespace Switchboard

/-- A command with its payload; all but four are carried as they are. -/
inductive Command where
  /-- Presents a token for admission. -/
  | authenticate (token : String)
  /-- Makes the source route known beyond the uplink. -/
  | routeAnnounce
  /-- Withdraws a route made known before. -/
  | routeUnannounce
  /-- A route was torn down. -/
  | dispose (route : String)
  | other (name : String) (data : Option Value)
deriving Repr

namespace Command

def authenticateName : String := "authenticate"

def routeAnnounceName : String := "routeannounce"

def routeUnannounceName : String := "routeunannounce"

def disposeName : String := "dispose"

def name : Command → String
  | .authenticate _ => authenticateName
  | .routeAnnounce => routeAnnounceName
  | .routeUnannounce => routeUnannounceName
  | .dispose _ => disposeName
  | .other name _ => name

def data : Command → Option Value
  | .authenticate token => some (.string token)
  | .routeAnnounce | .routeUnannounce => none
  | .dispose route => some (.object [("routeid", .string route)])
  | .other _ data => data

/-- What a value is called where another was wanted. -/
def found : Value → Json.Found
  | .null => .null
  | .bool b => .bool b
  | .int n => .int n
  | .double x => .double x
  | .string s => .string s
  | .array _ => .sequence
  | .object _ => .map

def routeOf : Value → Except Json.Fault String
  | .string s => .ok s
  | v => .error (.mistyped (found v) "a string")

def disposeTitle : String := "struct DisposeData"

/-- The route that a payload of `dispose` names, in a member or as the only item of a list. -/
def disposedRoute : Value → Except Json.Fault String
  | .array [] => .error (.wrongLength 0 (disposeTitle ++ " with 1 element"))
  | .array (v :: rest) => do
    let route ← routeOf v
    if rest.isEmpty then return route
    else .error (.wrongLength (rest.length + 1) "fewer elements in array")
  | .object members =>
    match members.find? (·.1 == "routeid") with
    | some (_, v) => routeOf v
    | none => .error (.missing "routeid")
  | v => .error (.mistyped (found v) disposeTitle)

/-- The command of a name and a payload. -/
def ofParts (name : String) (data : Option Value) : Except WireError Command :=
  let refuse (text : String) := Except.error (WireError.invalidCommandData name text)
  if name = authenticateName then
    match data with
    | some (.string token) => .ok (.authenticate token)
    | some _ => refuse "token is not a string"
    | none => refuse "missing token"
  else if name = routeAnnounceName then .ok .routeAnnounce
  else if name = routeUnannounceName then .ok .routeUnannounce
  else if name = disposeName then
    match data with
    | none => refuse "missing payload"
    | some v =>
      match disposedRoute v with
      | .ok route => .ok (.dispose route)
      | .error fault => refuse fault.text
  else .ok (.other name data)

end Command

namespace Envelope

/-- The envelope of a command. -/
def ofCommand (c : Command) : Envelope := { command := some c.name, data := c.data }

/-- The command that an envelope carries, if it carries one. -/
def command? (e : Envelope) : Except WireError (Option Command) :=
  match e.command with
  | some name => if name = "" then .ok none else (Command.ofParts name e.data).map some
  | none => .ok none

end Envelope

end Switchboard
