/-!
# Texts in JSON

A text stands between double quotes. Quotes, backslashes and the common control
characters have short escapes; the other control characters are written with four
hexadecimal digits. Everything else stands for itself.

* `shortEscape?`, `shortEscaped?`: the short escapes, both ways.
* `escape`: the spelling of one character.
* `quote`: the spelling of a text.
-/

namespace SparseTiling.Json

/-- The letter of a short escape that is written. -/
def shortEscape? (c : Char) : Option Char :=
  if c = '"' then some '"'
  else if c = '\\' then some '\\'
  else if c = '\x08' then some 'b'
  else if c = '\x0c' then some 'f'
  else if c = '\n' then some 'n'
  else if c = '\r' then some 'r'
  else if c = '\t' then some 't'
  else none

/-- The character of a short escape that is read. A slash may be escaped too. -/
def shortEscaped? (c : Char) : Option Char :=
  if c = '"' then some '"'
  else if c = '\\' then some '\\'
  else if c = '/' then some '/'
  else if c = 'b' then some '\x08'
  else if c = 'f' then some '\x0c'
  else if c = 'n' then some '\n'
  else if c = 'r' then some '\r'
  else if c = 't' then some '\t'
  else none

/-- The digit for a number below sixteen. -/
def hexDigit (n : Nat) : Char :=
  if n < 10 then Char.ofNat ('0'.toNat + n) else Char.ofNat ('a'.toNat + (n - 10))

/-- The spelling of a character inside quotes. -/
def escape (c : Char) : List Char :=
  match shortEscape? c with
  | some letter => ['\\', letter]
  | none =>
    if c.toNat < 0x20 then ['\\', 'u', '0', '0', hexDigit (c.toNat / 16), hexDigit (c.toNat % 16)]
    else [c]

/-- The spelling of a text. -/
def quote (text : String) : List Char := '"' :: text.toList.flatMap escape ++ ['"']

end SparseTiling.Json
