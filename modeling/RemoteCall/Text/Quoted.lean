import RemoteCall.Text.Hidden

/-! Text in quotes, as reports show it.

Quotation marks and backslashes are escaped, the common blanks by their letter, and
every character that would not show by its number in braces. -/
namespace RemoteCall.Text

/-- The digits of a number in lowercase hexadecimal. -/
def hexDigits (n : Nat) : String := String.ofList (Nat.toDigits 16 n)

def quotedChar (c : Char) : String :=
  if c = '"' then "\\\"" else if c = '\\' then "\\\\"
  else if c = '\n' then "\\n" else if c = '\r' then "\\r" else if c = '\t' then "\\t"
  else if c.toNat = 0 then "\\0"
  else if isHidden c then "\\u\x7b" ++ hexDigits c.toNat ++ "\x7d"
  else c.toString

def quoted (s : String) : String := "\"" ++ String.join (s.toList.map quotedChar) ++ "\""

end RemoteCall.Text
