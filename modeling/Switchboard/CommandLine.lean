import Switchboard.Duration

/-! The words of a command line and the options that they give. -/
namespace Switchboard

inductive LogFormat where
  | text
  | json
deriving DecidableEq, Repr

inductive LogLevel where
  | error
  | warn
  | info
  | debug
  | trace
deriving DecidableEq, Repr

namespace LogLevel

def name : LogLevel → String
  | error => "error"
  | warn => "warn"
  | info => "info"
  | debug => "debug"
  | trace => "trace"

def ofName? (s : String) : Option LogLevel :=
  [error, warn, info, debug, trace].find? (·.name = s)

end LogLevel

/-- What the program was asked for. -/
structure Options where
  /-- Local clients are served as well. -/
  router : Bool := false
  socket : Option String := none
  authTimeout : UInt64 := 5000
  /-- Seconds between status reports; none are sent for 0. -/
  statusInterval : UInt64 := 0
  logFormat : LogFormat := .text
  logLevel : LogLevel := .info
  token : Option String := none
deriving DecidableEq, Repr

/-- What the process finds in its environment. -/
structure Environment where
  socket : Option String := none
  token : Option String := none
  home : Option String := none

namespace CommandLine

/-- Why a command line is not carried out. -/
inductive Refusal where
  | displayHelp
  | displayVersion
  | unknownArgument
  | invalidValue
  | valueValidation
  | argumentConflict
  | tooManyValues
deriving DecidableEq, Repr

inductive Key where
  | router
  | socket
  | authTimeout
  | statusInterval
  | logFormat
  | logLevel
  | token
deriving DecidableEq, Repr

namespace Key

def name : Key → String
  | router => "router"
  | socket => "socket"
  | authTimeout => "auth-timeout-ms"
  | statusInterval => "status-interval-secs"
  | logFormat => "log-format"
  | logLevel => "log-level"
  | token => "jwt"

def ofName? (s : String) : Option Key :=
  [router, socket, authTimeout, statusInterval, logFormat, logLevel, token].find? (·.name = s)

end Key

def digits (cs : List Char) : Option Nat :=
  if cs ≠ [] && cs.all Char.isDigit then
    some (cs.foldl (fun n c => n * 10 + (c.toNat - 48)) 0)
  else none

/-- A number of 64 bits, with or without a sign in front. -/
def number (s : String) : Except Refusal UInt64 :=
  let cs := match s.toList with
    | '+' :: cs => cs
    | cs => cs
  match digits cs with
  | some n => if n < 0x10000000000000000 then .ok (UInt64.ofNat n) else .error .valueValidation
  | none => .error .valueValidation

/-- The options with one of them given. -/
def set (o : Options) : Key → String → Except Refusal Options
  | .router, _ => .ok { o with router := true }
  | .socket, s => if s = "" then .error .invalidValue else .ok { o with socket := some s }
  | .authTimeout, s => (number s).map fun n => { o with authTimeout := n }
  | .statusInterval, s => (number s).map fun n => { o with statusInterval := n }
  | .logFormat, s =>
    if s = "text" then .ok { o with logFormat := .text }
    else if s = "json" then .ok { o with logFormat := .json }
    else .error .invalidValue
  | .logLevel, s =>
    match LogLevel.ofName? s with
    | some level => .ok { o with logLevel := level }
    | none => .error .invalidValue
  | .token, s => .ok { o with token := some s }

/-- How far a command line is read. -/
structure State where
  options : Options := {}
  given : List Key := []
  /-- An option whose value comes next or was the last word. -/
  pending : Option (Key × Option String) := none

/-- Takes an option that was given with its value; none is given twice. -/
def give (s : State) (key : Key) (value : String) : Except Refusal State :=
  if s.given.contains key then .error .argumentConflict
  else (set s.options key value).map fun o => ⟨o, key :: s.given, none⟩

/-- Takes the option that is pending, which must have its value by now. -/
def settle (s : State) : Except Refusal State :=
  match s.pending with
  | none => .ok s
  | some (_, none) => .error .invalidValue
  | some (key, some value) => give s key value

/-- The part of a word before its first equals sign, and the part behind it. -/
def splitValue (cs : List Char) : List Char × Option (List Char) :=
  match cs.dropWhile (· ≠ '=') with
  | [] => (cs, none)
  | _ :: value => (cs.takeWhile (· ≠ '='), some value)

/-- Help and the version are shown once what stands before them is taken. -/
def show? (s : State) (r : Refusal) : Except Refusal State :=
  match settle s with
  | .ok _ => .error r
  | .error r => .error r

/-- A word with two dashes in front. -/
def longWord (s : State) (cs : List Char) : Except Refusal State :=
  let (name, value) := splitValue cs
  let display (r : Refusal) : Except Refusal State :=
    if value.isSome then .error .tooManyValues else show? s r
  if name = "help".toList then display .displayHelp
  else if name = "version".toList then display .displayVersion
  else
    match Key.ofName? (String.ofList name), value with
    | none, _ => .error .unknownArgument
    | some .router, some _ => .error .tooManyValues
    | some .router, none => do give (← settle s) .router ""
    | some key, some value => do give (← settle s) key (String.ofList value)
    | some key, none => do return { ← settle s with pending := some (key, none) }

/-- A word with one dash in front; its first letter decides. -/
def shortWord (s : State) (c : Char) : Except Refusal State :=
  if c = 'h' then show? s .displayHelp
  else if c = 'V' then show? s .displayVersion
  else .error .unknownArgument

/-- A word that can only be the value of the option before it. -/
def plainWord (s : State) (w : String) : Except Refusal State :=
  match s.pending with
  | some (key, none) => .ok { s with pending := some (key, some w) }
  | _ => .error .unknownArgument

def word (s : State) (w : String) : Except Refusal State :=
  match w.toList with
  | '-' :: '-' :: cs => longWord s cs
  | '-' :: c :: _ => shortWord s c
  | _ => plainWord s w

/-- Reads the words; behind two lone dashes none may follow. -/
def words (s : State) : List String → Except Refusal State
  | [] => settle s
  | w :: rest =>
    if w = "--" then if rest.isEmpty then settle s else .error .unknownArgument
    else do words (← word s w) rest

/-- Takes from the environment what the words did not give. -/
def fallBack (s : State) (key : Key) : Option String → Except Refusal State
  | none => .ok s
  | some value => if s.given.contains key then .ok s else give s key value

/-- The options that words and environment give. -/
def read (env : Environment) (ws : List String) : Except Refusal Options := do
  let s ← words {} ws
  let s ← fallBack s .socket env.socket
  let s ← fallBack s .token env.token
  return s.options

end CommandLine

end Switchboard
