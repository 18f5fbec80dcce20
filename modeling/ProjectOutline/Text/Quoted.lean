import ProjectOutline.Text.Unprintable

/-!
Text in double quotes for messages: quotes, backslashes and the usual control characters are written
with a backslash, and a character without a visible form by its number.
-/

namespace ProjectOutline.Text

/-- The digits of a number in base sixteen, in lower case. -/
def hex (n : Nat) : String := String.ofList (Nat.toDigits 16 n)

def quoteChar (c : Char) : String :=
  if c = '"' then "\\\""
  else if c = '\\' then "\\\\"
  else if c = '\n' then "\\n"
  else if c = '\t' then "\\t"
  else if c = '\r' then "\\r"
  else if c = '\x00' then "\\0"
  else if isUnprintable c then "\\u\x7b" ++ hex c.toNat ++ "\x7d"
  else String.singleton c

def quote (s : String) : String :=
  "\"" ++ String.join (s.toList.map quoteChar) ++ "\""

end ProjectOutline.Text
