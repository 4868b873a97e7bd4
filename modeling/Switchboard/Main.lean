import Std.Time.DateTime
import Switchboard.Program

/-! The program on its standard streams. Local sockets are not to be had here, so a server
that needs one does not start. -/
namespace Switchboard.Program

/-- Time between looks at the clock while nothing comes in, in milliseconds. -/
def patience : UInt32 := 20

def readEnvironment : IO Environment :=
  return ⟨← IO.getEnv "TETHER_SOCKET", ← IO.getEnv "TETHER_JWT", ← IO.getEnv "HOME"⟩

def readClock : IO Duration :=
  return .ofSeconds (← Std.Time.Timestamp.now).toSecondsSinceUnixEpoch.val.toNat

/-- A number that nobody can guess. -/
def readSeed : IO Nat := return Bytes.toNat (← IO.getRandomBytes 5).data.toList

/-- One read of the input, with a failure as a read of its own. -/
def readInput (input : IO.FS.Stream) : BaseIO (Option Read) := do
  match ← (input.read 8192).toBaseIO with
  | .ok b => return if b.isEmpty then none else some (.data b.data.toList)
  | .error e => return some (.failure (toString e))

/-- Prints what is to be printed. -/
def printOutput (output : IO.FS.Stream) (r : Running) : IO Running := do
  let (b, r) := r.output
  if b.isEmpty then return r
  match ← (output.write ⟨b.toArray⟩ *> output.flush).toBaseIO with
  | .ok () => return r
  | .error e =>
    return { r with session := r.session.failUplink r.parts.link (toString e) }

/-- Serves until there is an exit code. -/
partial def serve (input output : IO.FS.Stream) (since : Nat)
    (pending : Option (Task (Option Read))) (r : Running) : IO UInt32 := do
  let r ← printOutput output r
  match r.exitCode? with
  | some code => return UInt32.ofNat code.toNat
  | none =>
    let now ← IO.monoNanosNow
    let r := r.advance ⟨now - since⟩
    match pending with
    | none => serve input output now (some (← (readInput input).asTask .dedicated)) r
    | some task =>
      if ← IO.hasFinished task then
        match task.get with
        | some read => serve input output now none (r.receive read)
        | none => serve input output now (some (.pure none)) r.endInput
      else
        IO.sleep patience
        serve input output now pending r

/-- Runs the program. -/
def run (words : List String) : IO UInt32 := do
  let env ← readEnvironment
  match settings env words with
  | .error e =>
    (← IO.getStdout).putStr e.text
    return UInt32.ofNat e.code.toNat
  | .ok { mode := .router socket, .. } =>
    (← IO.getStderr).putStrLn (Files.refuse "bind" socket).text
    return UInt32.ofNat Shutdown.failureCode.toNat
  | .ok _ =>
    match start env words (← readClock) (← readSeed) {} with
    | (.error e, _) => return UInt32.ofNat e.code.toNat
    | (.ok r, _) =>
      serve (← IO.getStdin) (← IO.getStdout) (← IO.monoNanosNow) none r.settle

end Switchboard.Program

def main (words : List String) : IO UInt32 := Switchboard.Program.run words
