import Scannerless.Text.Numeral
import Scannerless.Text.Printable

/-!
# Quoted texts

A text in quotes, as messages and names show it. The quote is an apostrophe, or a double quote where
the text holds an apostrophe and no double quote. The quote in use and the backslash stand behind a
backslash, newline, carriage return and tab have short forms, and every other character that is not
printable is written by its scalar value in two, four or eight hexadecimal digits.
-/
namespace Scannerless.Text.Quoted

/-- The quote that a text is written in. -/
def quoteFor (chars : List Char) : Char :=
  if chars.contains '\'' && !chars.contains '"' then '"' else '\''

/-- An escape by scalar value, in the shortest of its three forms. -/
def numericEscape (n : Nat) : List Char :=
  if n < 0x100 then '\\' :: 'x' :: Numeral.hex 2 n
  else if n < 0x10000 then '\\' :: 'u' :: Numeral.hex 4 n
  else '\\' :: 'U' :: Numeral.hex 8 n

/-- One character as it stands between the quotes. -/
def encodeChar (quote c : Char) : List Char :=
  if c = quote ∨ c = '\\' then ['\\', c]
  else if c = '\n' then ['\\', 'n']
  else if c = '\r' then ['\\', 'r']
  else if c = '\t' then ['\\', 't']
  else if isPrintable c then [c]
  else numericEscape c.toNat

def encode (text : String) : String :=
  let chars := text.toList
  let quote := quoteFor chars
  String.ofList (quote :: chars.flatMap (encodeChar quote) ++ [quote])

end Scannerless.Text.Quoted
