import Switchboard.Error
import Switchboard.Files.Tree

/-! Binding the socket that local clients connect to. -/
namespace Switchboard.Files

/-- Stands for the system's own words, which differ from system to system. -/
def systemText : String := "<os>"

/-- A socket's path must be shorter than this many bytes. -/
def maxSocketPath : Nat := 108

def refuse (deed path : String) : Error :=
  .listener ("cannot " ++ deed ++ " " ++ path ++ ": " ++ systemText)

namespace Tree

/-- Makes the directory that a socket is to stand in. -/
def prepare (path : String) (t : Tree) : Except Error Unit × Tree :=
  match Path.parent? path with
  | none => (.ok (), t)
  | some above =>
    if above = "" then (.ok (), t)
    else
      match t.createAll above with
      | (.ok (), t) => (.ok (), t)
      | (.error _, t) => (.error (refuse "create" above), t)

/-- Removes a socket of an earlier run; anything else is in the way. -/
def clear (path : String) (t : Tree) : Except Error Unit × Tree :=
  match t.locate false path with
  | .ok (place, some .socket) => (.ok (), t.remove place)
  | .ok (_, some _) => (.error (.listener (path ++ " exists and is not a socket")), t)
  | .ok (_, none) | .error .missing => (.ok (), t)
  | .error _ => (.error (refuse "inspect" path), t)

/-- Puts the socket at its place. -/
def place (path : String) (t : Tree) : Except Error Unit × Tree :=
  if maxSocketPath ≤ path.utf8ByteSize then (.error (refuse "bind" path), t)
  else
    match t.create path .socket with
    | .ok t => (.ok (), t)
    | .error _ => (.error (refuse "bind" path), t)

/-- Binds a socket, in a directory made for it and in place of an earlier socket. -/
def bind (path : String) (t : Tree) : Except Error Unit × Tree :=
  match t.prepare path with
  | (.error e, t) => (.error e, t)
  | (.ok (), t) =>
    match t.clear path with
    | (.error e, t) => (.error e, t)
    | (.ok (), t) => t.place path

end Tree

end Switchboard.Files
