import Reckoner.Text.Shown

/-!
# Quoted text

Text between double quotes, as messages and nested applications show it.  The quote and the
backslash are escaped, as are line ends, tabs and the null character; any other character that
does not show is written by its number.
-/

namespace Reckoner

/-- A character by its number in hexadecimal. -/
def numericEscape (c : Char) : String :=
  "\\u\x7b" ++ String.ofList (Nat.toDigits 16 c.toNat) ++ "\x7d"

/-- A character as it stands in quoted text. -/
def quotedChar (c : Char) : String :=
  if c = '"' then "\\\""
  else if c = '\\' then "\\\\"
  else if c = '\n' then "\\n"
  else if c = '\r' then "\\r"
  else if c = '\t' then "\\t"
  else if c = '\x00' then "\\0"
  else if isShown c then c.toString
  else numericEscape c

def quoted (text : String) : String :=
  text.toList.foldl (fun out c => out ++ quotedChar c) "\"" ++ "\""

end Reckoner
