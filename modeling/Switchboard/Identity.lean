import Switchboard.Base64
import Switchboard.Error
import Switchboard.Json.Printer
import Switchboard.Json.Reader

/-! The identity in a token: whom it was issued to. -/
namespace Switchboard

/-- The identity that a token carries. -/
structure Identity where
  /-- Kind of client that the token was issued to. -/
  clientType : Option String := none
  block : Option String := none
  tab : Option String := none
  /-- Name of the remote connection. -/
  connection : Option String := none
  isRouter : Bool := false
deriving DecidableEq, Repr, Inhabited

namespace Identity

def layout : Layout Identity where
  title := "struct RpcContext"
  fields := [
    .text "ctype" clientType fun s c => { c with clientType := s },
    .text "blockid" block fun s c => { c with block := s },
    .text "tabid" tab fun s c => { c with tab := s },
    .text "conn" connection fun s c => { c with connection := s },
    .flag "router" isRouter fun b c => { c with isRouter := b }]
  blank := {}

def toJson (c : Identity) : Bytes := Json.renderRecord layout c

def ofJson (b : Bytes) : Except Json.Fault Identity := Json.readRecord layout b

/-- The parts of a text between its dots. -/
def segments (b : Bytes) : List Bytes := b.splitOn 46

/-- A segment without the padding at its end. -/
def unpadded (b : Bytes) : Bytes := (b.reverse.dropWhile (· == 61)).reverse

/-- Reads the claims of a token; its signature is not looked at. -/
def ofToken (token : String) : Except Error Identity :=
  if token = "" then .error (.auth "empty token")
  else
    match segments (Bytes.ofText token) with
    | [_, claims, _] =>
      match Base64.decode? (unpadded claims) with
      | none => .error (.auth "malformed token claims: <base64>")
      | some b =>
        (ofJson b).mapError fun fault => .auth ("malformed token claims: " ++ fault.text)
    | parts => .error (.auth
        ("malformed token: expected 3 segments, got " ++ toString parts.length))

def connectionServerType : String := "connserver"

def blockControllerType : String := "blockcontroller"

def connectionRoute (name : String) : String := "conn:" ++ name

def controllerRoute (block : String) : String := "controller:" ++ block

/-- The route of a client process with a given id of its own. -/
def processRoute (id : String) : String := "proc:" ++ id

def named (name : Option String) (complaint : String) : Except Error String :=
  match name with
  | some name => if name = "" then .error (.auth complaint) else .ok name
  | none => .error (.auth complaint)

/-- The route that the holder is registered under; `id` is taken for a client of no type. -/
def route (c : Identity) (id : String) : Except Error String :=
  match c.clientType with
  | none => .ok (processRoute id)
  | some kind =>
    if kind = "" then .ok (processRoute id)
    else if kind = connectionServerType then
      (named c.connection "connserver token has no conn claim").map connectionRoute
    else if kind = blockControllerType then
      (named c.block "blockcontroller token has no blockid claim").map controllerRoute
    else .error (.auth ("unsupported client type: " ++ kind))

end Switchboard.Identity
