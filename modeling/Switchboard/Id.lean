/-! Ids that are made up where something new needs a name. -/
namespace Switchboard.Id

/-- A number in at least `width` hexadecimal digits. -/
def padded (width n : Nat) : String :=
  let ds := Nat.toDigits 16 n
  String.ofList (List.replicate (width - ds.length) '0' ++ ds)

def stem : String := "00000000-0000-4000-8000-"

/-- The id of a number; no two numbers share one. -/
def ofNat (n : Nat) : String := stem ++ padded 12 n

end Switchboard.Id
