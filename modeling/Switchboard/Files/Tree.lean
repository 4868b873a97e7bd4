import Switchboard.Files.Path
import Switchboard.Registry

/-! Directory trees, and how the system finds its way in them. -/
namespace Switchboard.Files

/-- What stands at a place of the tree. -/
inductive Entry where
  | directory
  | file (text : String)
  | link (target : String)
  | socket
deriving DecidableEq, Repr

/-- Why the system refuses a path. -/
inductive Fault where
  | missing
  | occupied
  | notDirectory
  | nameTooLong
  | tooManyLinks
  | invalid
deriving DecidableEq, Repr

/-- The entries of a tree by the names that lead to them; its root is a directory. -/
structure Tree where
  entries : Registry (List String) Entry := {}

/-- Longest name of an entry, in bytes. -/
def maxName : Nat := 255

/-- A path of this many bytes is too long. -/
def maxPath : Nat := 4096

/-- Links that are followed on the way to one place. -/
def maxLinks : Nat := 40

namespace Tree

def entry? (t : Tree) (place : List String) : Option Entry :=
  if place = [] then some .directory else t.entries.get? place

def put (t : Tree) (place : List String) (e : Entry) : Tree := ⟨t.entries.insert place e⟩

def remove (t : Tree) (place : List String) : Tree := ⟨t.entries.erase place⟩

/-- The place that names lead to from a directory, and what stands there. Only the last name
may lead to nothing; a link at the end is followed if `follow` holds. -/
def walk (t : Tree) (follow : Bool) (links : Nat) (here : List String) :
    List String → Except Fault (List String × Option Entry)
  | [] => .ok (here, t.entry? here)
  | name :: rest =>
    if name = "." then walk t follow links here rest
    else if name = ".." then walk t follow links here.dropLast rest
    else if maxName < name.utf8ByteSize then .error .nameTooLong
    else
      let place := here ++ [name]
      match t.entry? place with
      | none => if rest.isEmpty then .ok (place, none) else .error .missing
      | some .directory => walk t follow links place rest
      | some (.link target) =>
        if rest.isEmpty && !follow then .ok (place, some (.link target))
        else
          match links with
          | 0 => .error .tooManyLinks
          | links + 1 =>
            walk t follow links (if Path.isAbsolute target then [] else here)
              (Path.names target ++ rest)
      | some e => if rest.isEmpty then .ok (place, some e) else .error .notDirectory
termination_by names => (links, names.length)

/-- The place that a path denotes. -/
def locate (t : Tree) (follow : Bool) (path : String) :
    Except Fault (List String × Option Entry) :=
  if path = "" then .error .missing
  else if path.toList.contains '\x00' then .error .invalid
  else if maxPath ≤ path.utf8ByteSize then .error .nameTooLong
  else walk t follow maxLinks [] (Path.names path)

/-- What stands at a path itself. -/
def inspect (t : Tree) (path : String) : Except Fault Entry :=
  match t.locate false path with
  | .ok (_, some e) => .ok e
  | .ok (_, none) => .error .missing
  | .error f => .error f

def isDirectory (t : Tree) (path : String) : Bool :=
  match t.locate true path with
  | .ok (_, some .directory) => true
  | _ => false

/-- Puts an entry where there is none. -/
def create (t : Tree) (path : String) (e : Entry) : Except Fault Tree :=
  match t.locate false path with
  | .ok (place, none) => .ok (t.put place e)
  | .ok (_, some _) => .error .occupied
  | .error f => .error f

/-- Makes a directory after those above it; `fuel` bounds their number. -/
def createAllFrom : (fuel : Nat) → String → Tree → Except Fault Unit × Tree
  | 0, _, t => (.error .missing, t)
  | fuel + 1, path, t =>
    match t.create path .directory with
    | .ok t => (.ok (), t)
    | .error .missing =>
      match Path.parent? path with
      | none => (.error .missing, t)
      | some above =>
        match if above = "" then (.ok (), t) else createAllFrom fuel above t with
        | (.error f, t) => (.error f, t)
        | (.ok (), t) =>
          match t.create path .directory with
          | .ok t => (.ok (), t)
          | .error f => (if t.isDirectory path then .ok () else .error f, t)
    | .error f => (if t.isDirectory path then .ok () else .error f, t)

/-- Makes a directory and those above it, as far as they are missing. -/
def createAll (path : String) (t : Tree) : Except Fault Unit × Tree :=
  createAllFrom (path.length + 1) path t

end Tree

end Switchboard.Files
