import Switchboard.Agent
import Switchboard.Server

/-! The program: from its command line to a server that runs or an exit code. -/
namespace Switchboard.Program

def versionText : String := "tether-agent 0.1.0\n"

def helpText : String :=
  "Remote connection server\n\n" ++
  "Usage: tether-agent [OPTIONS]\n\n" ++
  "Options:\n" ++
  "      --router                       Serve local socket clients too\n" ++
  "      --socket <PATH>                Unix socket for local clients\n" ++
  "      --auth-timeout-ms <MS>         Time a new client has to authenticate\n" ++
  "      --status-interval-secs <SECS>  Seconds between status reports; 0 for none\n" ++
  "      --log-format <FORMAT>          text or json\n" ++
  "      --log-level <LEVEL>            error, warn, info, debug or trace\n" ++
  "  -h, --help                         Print help\n" ++
  "  -V, --version                      Print version\n"

/-- The end of a program: its exit code and what it prints. -/
structure Exit where
  code : Int
  text : String := ""

/-- What follows from a command line that is not carried out. -/
def refused : CommandLine.Refusal → Exit
  | .displayHelp => ⟨0, helpText⟩
  | .displayVersion => ⟨0, versionText⟩
  | _ => ⟨Shutdown.settingsCode, ""⟩

/-- What the program is asked to serve. -/
def settings (env : Environment) (words : List String) : Except Exit Settings :=
  match CommandLine.read env words with
  | .error r => .error (refused r)
  | .ok options =>
    (Settings.ofOptions options env.home).mapError fun _ => ⟨Shutdown.settingsCode, ""⟩

/-- A server that runs. -/
structure Running where
  session : Session Agent
  parts : Server.Parts

/-- Starts the program at a time of day, on a directory tree; its ids are counted from `seed`. -/
def start (env : Environment) (words : List String) (clock : Duration) (seed : Nat)
    (t : Files.Tree) :
    Except Exit Running × Files.Tree :=
  match settings env words with
  | .error e => (.error e, t)
  | .ok settings =>
    match Server.start { clock, minted := seed } settings { started := clock } t with
    | (.error f, t) => (.error ⟨f.exitCode, ""⟩, t)
    | (.ok (session, parts), t) => (.ok ⟨session, parts⟩, t)

namespace Running

/-- Lets everything run that can. -/
def settle (r : Running) : Running :=
  { r with session := r.session.settle Agent.handler }

/-- Takes in a read of the input. -/
def receive (r : Running) (read : Read) : Running :=
  settle { r with session := r.session.receiveUplink r.parts.link read }

/-- Takes in the end of the input. -/
def endInput (r : Running) : Running :=
  settle { r with session := r.session.endUplink r.parts.link }

/-- Lets time pass. -/
def advance (r : Running) (time : Duration) : Running :=
  settle { r with session := r.session.advance Agent.handler time }

/-- Takes what is to be printed. -/
def output (r : Running) : Bytes × Running :=
  match r.session.link? r.parts.link with
  | none => ([], r)
  | some link =>
    (link.written,
      { r with session := r.session.changeLink r.parts.link fun l => { l with written := [] } })

/-- The exit code, once there is one. -/
def exitCode? (r : Running) : Option Int := r.session.currentShutdown.awaited?

end Running

end Switchboard.Program
