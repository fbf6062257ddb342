import PacketRelay.Text.Invisible

/-!
# Quoted text

A text is quoted by double quotes around it. Inside, the quote, the backslash, and the characters
null, tab, line feed and carriage return have an escape of two characters; every other character
without a visible form is written by its code point in hexadecimal digits between braces.
-/

namespace PacketRelay.Text

/-- A code point written in hexadecimal digits between braces. -/
def codePoint (c : Char) : List Char :=
  ['\\', 'u', '\x7b'] ++ Nat.toDigits 16 c.toNat ++ ['\x7d']

/-- One character as it stands in a quoted text. -/
def quoteChar (c : Char) : List Char :=
  if c = '"' then ['\\', '"']
  else if c = '\\' then ['\\', '\\']
  else if c = '\n' then ['\\', 'n']
  else if c = '\r' then ['\\', 'r']
  else if c = '\t' then ['\\', 't']
  else if c = '\x00' then ['\\', '0']
  else if isInvisible c then codePoint c
  else [c]

def quote (s : String) : String :=
  String.ofList (['"'] ++ s.toList.flatMap quoteChar ++ ['"'])

end PacketRelay.Text
