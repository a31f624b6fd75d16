import CommandMenu.Text.Shown

/-! # Quoted texts

A text in a message stands between double quotes.  The quote, the backslash, tab, line feed,
carriage return and the null character are escaped by a letter, and every other character that is
not shown as it is by its number in hexadecimal digits between braces.
-/

namespace CommandMenu.Text

/-- The number in hexadecimal digits, with small letters. -/
def hex (n : Nat) : String := String.ofList (Nat.toDigits 16 n)

/-- What stands for a character between quotes. -/
def quoteChar (c : Char) : String :=
  if c = '"' then "\\\""
  else if c = '\\' then "\\\\"
  else if c = '\n' then "\\n"
  else if c = '\r' then "\\r"
  else if c = '\t' then "\\t"
  else if c = '\x00' then "\\0"
  else if isShown c then String.singleton c
  else "\\u\x7b" ++ hex c.toNat ++ "\x7d"

/-- The text between double quotes. -/
def quote (s : String) : String := "\"" ++ String.join (s.toList.map quoteChar) ++ "\""

end CommandMenu.Text
