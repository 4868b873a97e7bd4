/-! Paths as texts. -/
namespace Switchboard.Path

/-- The parts of a text between its slashes. -/
def parts : List Char → List (List Char)
  | [] => [[]]
  | c :: cs =>
    if c = '/' then [] :: parts cs
    else
      match parts cs with
      | [] => [[c]]
      | p :: ps => (c :: p) :: ps

/-- The names that a path goes through; a slash at its end stands for the place itself. -/
def names (path : String) : List String :=
  let cs := path.toList
  let inner := ((parts cs).filter (· ≠ [])).map String.ofList
  if cs.getLast? = some '/' then inner ++ ["."] else inner

def isAbsolute (path : String) : Bool := path.toList.head? == some '/'

/-- A path from its end, without the slashes and dots that lead nowhere. -/
def trimmed : List Char → List Char
  | ['/'] => ['/']
  | '/' :: cs => trimmed cs
  | ['.', '/'] => ['/']
  | '.' :: '/' :: cs => trimmed cs
  | cs => cs

/-- The path without its last name. -/
def parent? (path : String) : Option String :=
  match trimmed path.toList.reverse with
  | [] => none
  | ['/'] => none
  | cs => some (String.ofList (trimmed (cs.dropWhile (· ≠ '/'))).reverse)

/-- A path below a directory. -/
def join (directory path : String) : String :=
  if directory = "" || directory.toList.getLast? = some '/' then directory ++ path
  else directory ++ "/" ++ path

end Switchboard.Path
