import ModelRegistry.TextPrintable

/-!
# Quoted text

Text in a message stands between double quotes. A quote and a backslash follow
a backslash, line feed, tab, carriage return and NUL have letters of their own,
and every other unprintable character is given by its code point in hexadecimal.
-/

namespace ModelRegistry.TextQuoted

open TextPrintable

/-- The written form of one character inside quotes. -/
def quoteChar (c : Char) : List Char :=
  if c = '\x22' then ['\\', '\x22']
  else if c = '\\' then ['\\', '\\']
  else if c = '\n' then ['\\', 'n']
  else if c = '\t' then ['\\', 't']
  else if c = '\r' then ['\\', 'r']
  else if c = '\x00' then ['\\', '0']
  else if isPrintable c then [c]
  else ['\\', 'u', '\x7b'] ++ Nat.toDigits 16 c.toNat ++ ['\x7d']

/-- The text between quotes, each character in its written form. -/
def quote (text : String) : String :=
  String.ofList ('\x22' :: text.toList.flatMap quoteChar ++ ['\x22'])

end ModelRegistry.TextQuoted
