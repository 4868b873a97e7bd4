import Switchboard.Text.Unprintable

/-! Text between quotes, as messages show it. -/
namespace Switchboard.Text

def hex (n : Nat) : String := String.ofList (Nat.toDigits 16 n)

/-- How a character is shown between quotes. -/
def shown (c : Char) : String :=
  if c = '"' then "\\\""
  else if c = '\\' then "\\\\"
  else if c = '\n' then "\\n"
  else if c = '\r' then "\\r"
  else if c = '\t' then "\\t"
  else if c.toNat = 0 then "\\0"
  else if c.toNat < 32 ∨ c.toNat = 127 ∨ isUnprintable c then "\\u\x7b" ++ hex c.toNat ++ "\x7d"
  else c.toString

/-- A text between double quotes, what is not visible in it shown by escapes. -/
def quoted (s : String) : String := "\"" ++ String.join (s.toList.map shown) ++ "\""

end Switchboard.Text
