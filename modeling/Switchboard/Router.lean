import Switchboard.Command
import Switchboard.Identity
import Switchboard.Registry

/-! The router's tables, and where an envelope goes by them. -/
namespace Switchboard

/-- The reserved route of the uplink. -/
def uplinkRoute : String := "upstream"

/-- What a route is bound to. -/
structure Binding where
  endpoint : Nat
  /-- Lives as long as the router; its removal is nobody's news. -/
  isLocal : Bool := false
  /-- The pump that serves this binding. -/
  pump : Nat
deriving DecidableEq, Repr

/-- Carries what an endpoint has to say to the router, one envelope after the other. -/
structure Pump where
  /-- The route that the envelopes come from. -/
  source : String
  endpoint : Nat
  cancelled : Bool := false
  /-- An envelope that was taken and is not routed yet. -/
  held : Option Envelope := none
deriving Repr

structure Router where
  routes : Registry String Binding := {}
  uplink : Option Binding := none
  /-- Announced routes, each with the registered route that it is reached through. -/
  announced : Registry String String := {}
  defaultRoute : Option String := none
  /-- Tokens that clients are admitted with, and whom they stand for. -/
  accepted : Registry String Identity := {}
  closed : Bool := false
  /-- Every pump there ever was. -/
  pumps : List Pump := []

namespace Router

/-- The uplink, for all that does not come from there. -/
def upward (r : Router) (source : String) : Option (String × Binding) :=
  if source = uplinkRoute then none else r.uplink.map (uplinkRoute, ·)

def registered (r : Router) (route : String) : Option (String × Binding) :=
  (r.routes.get? route).map (route, ·)

/-- The registered route that an announced one is reached through. -/
def through (r : Router) (route : String) : Option (String × Binding) :=
  (r.announced.get? route).bind r.registered

/-- Where an envelope to a route goes that comes from `source`. -/
def resolve? (r : Router) (route : Option String) (source : String) :
    Option (String × Binding) :=
  match route with
  | some route =>
    if route = uplinkRoute then r.upward source
    else (r.registered route <|> r.through route) <|> r.upward source
  | none => r.defaultRoute.bind r.registered <|> r.upward source

def cancelPump (r : Router) (pump : Nat) : Router :=
  { r with pumps := r.pumps.modify pump fun p => { p with cancelled := true } }

def cancelPumpOf (r : Router) : Option Binding → Router
  | some b => r.cancelPump b.pump
  | none => r

/-- Binds a route, in place of what it was bound to. -/
def register (r : Router) (route : String) (endpoint : Nat) (isLocal : Bool) : Router :=
  let r := r.cancelPumpOf (r.routes.get? route)
  { r with
    routes := r.routes.insert route { endpoint, isLocal, pump := r.pumps.length }
    pumps := r.pumps ++ [{ source := route, endpoint }] }

/-- Removes a route, and with it what is announced through it. -/
def unregister (r : Router) (route : String) : Router :=
  match r.routes.get? route with
  | none => r
  | some b => cancelPump { r with
      routes := r.routes.erase route
      announced := r.announced.filter fun _ via => via ≠ route } b.pump

def setUplink (r : Router) (endpoint : Nat) : Router :=
  let r := r.cancelPumpOf r.uplink
  { r with
    uplink := some { endpoint, pump := r.pumps.length }
    pumps := r.pumps ++ [{ source := uplinkRoute, endpoint }] }

def clearUplink (r : Router) : Router :=
  { r.cancelPumpOf r.uplink with uplink := none }

/-- Takes an announcement back, with all that is reached through the route. -/
def retract (r : Router) (route : String) : Router :=
  { r with announced := r.announced.filter fun id via => id ≠ route && via ≠ route }

def revoke (r : Router) (token : String) : Router :=
  { r with accepted := r.accepted.erase token }

def accept (r : Router) (token : String) (c : Identity) : Router :=
  { r with accepted := r.accepted.insert token c }

/-- Notes an announcement; a route needs none to be reached through itself. -/
def noteAnnounced (r : Router) (route source : String) : Router :=
  if route = source then r else { r with announced := r.announced.insert route source }

/-- Notes the end of an announcement; only who made it can end it. -/
def noteUnannounced (r : Router) (route source : String) : Router :=
  if r.announced.get? route = some source then
    { r with announced := r.announced.erase route }
  else r

/-- The pumps of everything that is bound. -/
def boundPumps (r : Router) : List Nat :=
  r.routes.entries.map (·.2.pump) ++ (r.uplink.map (·.pump)).toList

/-- Ends all routing. -/
def shutdown (r : Router) : Router :=
  if r.closed then r else { r.boundPumps.foldl cancelPump r with closed := true }

end Router

end Switchboard
