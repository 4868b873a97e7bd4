import Switchboard.CommandLine
import Switchboard.Files.Path
import Switchboard.Frame
import Switchboard.Identity
import Switchboard.Text.Blank

/-! What a server is started with, once the options are found to make sense. -/
namespace Switchboard

/-- Whom a server serves. -/
inductive Mode where
  /-- Its input and output alone. -/
  | normal
  /-- Local clients on a socket too. -/
  | router (socket : String)
deriving DecidableEq, Repr

structure Settings where
  mode : Mode := .normal
  token : String
  identity : Identity
  /-- Time that a new connection has for authenticating. -/
  authTimeout : Duration := .ofSeconds 5
  maxFrame : Nat := Frame.maxBody
  statusInterval : Option Duration := none
deriving Repr

namespace Settings

def tokenVariable : String := "TETHER_JWT"

/-- Where the socket stands below a home directory. -/
def socketIn (home : String) : String :=
  Path.join (Path.join home ".tether") "tether-remote.sock"

def defaultSocket (home : Option String) : Except Error String :=
  match home with
  | some home =>
    if home = "" then .error (.config "HOME is not set and no socket path was given")
    else .ok (socketIn home)
  | none => .error (.config "HOME is not set and no socket path was given")

/-- The token, unless it is missing or blank. -/
def tokenOf (o : Options) : Except Error String :=
  match o.token with
  | some token =>
    if token.toList.all Text.isBlank then .error (.config ("no token in " ++ tokenVariable))
    else .ok token
  | none => .error (.config ("no token in " ++ tokenVariable))

def identityOf (token : String) : Except Error Identity :=
  (Identity.ofToken token).mapError fun e =>
    .config ("invalid token in " ++ tokenVariable ++ ": " ++ e.text)

def modeOf (o : Options) (home : Option String) : Except Error Mode :=
  if o.router then
    match o.socket with
    | some path => .ok (.router path)
    | none => (defaultSocket home).map .router
  else .ok .normal

/-- The settings of options; `home` is the home directory. -/
def ofOptions (o : Options) (home : Option String) : Except Error Settings := do
  let token ← tokenOf o
  let identity ← identityOf token
  if o.authTimeout = 0 then throw (.config "auth timeout must be positive")
  let mode ← modeOf o home
  return {
    mode, token, identity
    authTimeout := .ofMillis o.authTimeout.toNat
    statusInterval :=
      if o.statusInterval = 0 then none else some (.ofSeconds o.statusInterval.toNat) }

end Settings

end Switchboard
