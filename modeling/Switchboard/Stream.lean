import Switchboard.Bytes

/-! Byte streams as the reads that they answer with. -/
namespace Switchboard

/-- One read: some bytes, or a failure after which reading may go on. -/
inductive Read where
  | data (b : Bytes)
  | failure (text : String)
deriving DecidableEq, Repr

namespace Read

/-- The pieces of at most `limit` bytes, none of them empty; `fuel` bounds their number. -/
def pieces (limit : Nat) : (fuel : Nat) → Bytes → List Bytes
  | 0, _ => []
  | fuel + 1, b => if b.isEmpty then [] else b.take limit :: pieces limit fuel (b.drop limit)

/-- The reads that a buffer of `limit` bytes makes of a stream. -/
def cut (limit : Nat) (reads : List Read) : List Read :=
  reads.flatMap fun
    | .data b => (pieces limit b.length b).map .data
    | .failure text => [.failure text]

/-- Everything that is read. -/
def bytes (reads : List Read) : Bytes :=
  reads.flatMap fun
    | .data b => b
    | .failure _ => []

end Switchboard.Read
