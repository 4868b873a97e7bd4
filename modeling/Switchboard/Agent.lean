import Switchboard.Handler
import Switchboard.Registry

/-! The server's own handler: it answers probes and counts the commands of each route. -/
namespace Switchboard

structure Agent where
  started : Duration := ⟨0⟩
  /-- Commands by the route that they came from. -/
  counts : Registry String Nat := {}

namespace Agent

def pingName : String := "ping"

def statsName : String := "stats"

/-- Whom a command counts for; the empty name if it has no source. -/
def counted (m : Envelope) : String := m.source.getD ""

/-- Commands of a route since it was last disposed of. -/
def count (a : Agent) (route : String) : Nat := (a.counts.get? route).getD 0

def tally (a : Agent) (route : String) : Agent :=
  { a with counts := a.counts.insert route (a.count route + 1) }

/-- A sign of life. -/
def pong (a : Agent) (now : Duration) (c : Identity) : Value :=
  .object [("conn", .optional c.connection), ("pong", .bool true),
    ("timestamp", .int now.seconds),
    ("uptime_secs", .int (Duration.seconds ⟨now.nanos - a.started.nanos⟩))]

def stats (a : Agent) (route : String) : Value :=
  .object [("commands", .int (a.count route)), ("route", .string route)]

def answer (a : Agent) (now : Duration) (c : Identity) (m : Envelope) :
    Outcome (Option Value) :=
  match m.command with
  | none => .failed (.handler "missing command")
  | some name =>
    if name = pingName then .returned (some (a.pong now c))
    else if name = statsName then .returned (some (a.stats (counted m)))
    else .failed (.handler ("unsupported command: " ++ name))

def handler : Handler Agent where
  handle a now c m :=
    let a := a.tally (counted m)
    (a, ⟨a.answer now c m, ⟨0⟩⟩)
  dispose a route := { a with counts := a.counts.erase route }

/-- Number of routes that are counted for. -/
def tracked (a : Agent) : Nat := a.counts.size

end Agent

end Switchboard
