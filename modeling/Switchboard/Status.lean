import Switchboard.Command
import Switchboard.Identity
import Switchboard.Router

/-! Status reports, which a server sends over its uplink from time to time. -/
namespace Switchboard

structure Status where
  connection : Option String
  /-- Number of registered routes. -/
  routes : Nat
  /-- Whether an uplink is bound. -/
  uplink : Bool
  /-- Time since the first report was due. -/
  uptime : Duration

namespace Status

def commandName : String := "connstatus"

def of (r : Router) (c : Identity) (uptime : Duration) : Status :=
  ⟨c.connection, r.routes.size, r.uplink.isSome, uptime⟩

def toValue (s : Status) : Value :=
  .object [("conn", .optional s.connection), ("routes", .int s.routes),
    ("upstream", .bool s.uplink), ("uptime_secs", .int s.uptime.seconds)]

def command (s : Status) : Command := .other commandName (some s.toValue)

/-- A report that comes later than this is late. -/
def tolerance : Duration := .ofMillis 5

/-- When the next report is due: a full interval after a late one, else in step. -/
def nextDue (interval due now : Duration) : Duration :=
  if due.nanos + tolerance.nanos < now.nanos then ⟨now.nanos + interval.nanos⟩
  else ⟨due.nanos + interval.nanos⟩

end Status

end Switchboard
