import IdCompaction.Text.Blank

/-!
# Quoted text

The quoted form of a text stands between double quotes. Quotes and backslashes are escaped, the
common controls have short escapes, and every other character without a form of its own is written
as its number in hexadecimal between braces.
-/

namespace IdCompaction.Text

/-- One character of a quoted text. -/
def quoteChar (c : Char) : String :=
  if c = '"' then "\\\""
  else if c = '\\' then "\\\\"
  else if c = '\n' then "\\n"
  else if c = '\r' then "\\r"
  else if c = '\t' then "\\t"
  else if c = Char.ofNat 0 then "\\0"
  else if isBlank c then "\\u\x7b" ++ String.ofList (Nat.toDigits 16 c.toNat) ++ "\x7d"
  else c.toString

/-- The quoted form of a text. -/
def quote (text : String) : String :=
  "\"" ++ String.join (text.toList.map quoteChar) ++ "\""

end IdCompaction.Text
