import Switchboard.Bytes
import Switchboard.Record

/-! MessagePack of values and records, each head in its shortest form. -/
namespace Switchboard.MessagePack

/-- A number behind the marker of its width, the narrowest of 8, 16 and 32 bits that holds it. -/
def sized (m8 m16 m32 : UInt8) (n : Nat) : Bytes :=
  if n < 0x100 then m8 :: Bytes.ofNat 1 n
  else if n < 0x10000 then m16 :: Bytes.ofNat 2 n
  else m32 :: Bytes.ofNat 4 n

def writeNat (n : Nat) : Bytes :=
  if n < 0x80 then [UInt8.ofNat n]
  else if n < 0x100000000 then sized 0xcc 0xcd 0xce n
  else 0xcf :: Bytes.ofNat 8 n

/-- A negative number by its distance from zero. -/
def writeNegative (n : Nat) : Bytes :=
  if n ≤ 0x20 then [UInt8.ofNat (0x100 - n)]
  else if n ≤ 0x80 then 0xd0 :: Bytes.ofNat 1 (0x100 - n)
  else if n ≤ 0x8000 then 0xd1 :: Bytes.ofNat 2 (0x10000 - n)
  else if n ≤ 0x80000000 then 0xd2 :: Bytes.ofNat 4 (0x100000000 - n)
  else 0xd3 :: Bytes.ofNat 8 (0x10000000000000000 - n)

def writeInt (n : Int) : Bytes :=
  if 0 ≤ n then writeNat n.natAbs else writeNegative n.natAbs

def writeString (s : String) : Bytes :=
  let b := Bytes.ofText s
  (if b.length < 0x20 then [UInt8.ofNat (0xa0 + b.length)] else sized 0xd9 0xda 0xdb b.length) ++ b

/-- The head of a container: its count in the marker, or in two or four bytes behind one. -/
def containerHead (fixed m16 m32 : UInt8) (n : Nat) : Bytes :=
  if n < 0x10 then [fixed + UInt8.ofNat n]
  else if n < 0x10000 then m16 :: Bytes.ofNat 2 n
  else m32 :: Bytes.ofNat 4 n

mutual

def write : Value → Bytes
  | .null => [0xc0]
  | .bool false => [0xc2]
  | .bool true => [0xc3]
  | .int n => writeInt n
  | .double x => 0xcb :: Bytes.ofNat 8 x.bits.toNat
  | .string s => writeString s
  | .array items => containerHead 0x90 0xdc 0xdd items.length ++ writeItems items
  | .object members => containerHead 0x80 0xde 0xdf members.length ++ writeMembers members

def writeItems : List Value → Bytes
  | [] => []
  | v :: rest => write v ++ writeItems rest

def writeMembers : List (String × Value) → Bytes
  | [] => []
  | (k, v) :: rest => writeString k ++ write v ++ writeMembers rest

end

variable {ρ : Type}

/-- A record as a map of its entries, in the order of its fields. -/
def writeRecord (layout : Layout ρ) (x : ρ) : Bytes := write (.object (layout.entries x))

end Switchboard.MessagePack
