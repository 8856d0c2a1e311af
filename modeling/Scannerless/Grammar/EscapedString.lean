import Scannerless.Engine
import Scannerless.Parser.Build

/-!
# Escaped strings

A text between double quotes, in which a backslash starts an escape: a quote, a backslash, or a
letter for newline, tab or carriage return, or `u` and four hexadecimal digits for a scalar value.
Surrogates are no scalar values and are refused. A string that is not closed is reported where it
breaks off, with the failure of the escape if a backslash stands there.
-/
namespace Scannerless.Grammar.EscapedString

def simpleEscapes : List (Char × Char) :=
  [('"', '"'), ('\\', '\\'), ('n', '\n'), ('t', '\t'), ('r', '\r')]

def escapeDigits : Nat := 4

def hexDigit? (c : Char) : Option Nat :=
  if '0' ≤ c ∧ c ≤ '9' then some (c.toNat - '0'.toNat)
  else if 'a' ≤ c ∧ c ≤ 'f' then some (c.toNat - 'a'.toNat + 10)
  else if 'A' ≤ c ∧ c ≤ 'F' then some (c.toNat - 'A'.toNat + 10)
  else none

def hexValue (digits : List Char) : Nat :=
  digits.foldl (fun value c => value * 16 + (hexDigit? c).getD 0) 0

def quoteText : String := "\""

def backslashText : String := "\\"

/-- The characters of a text or of a tuple of texts. -/
def charsOf (result : Value) : List Char :=
  match result.join with
  | .ok (.text s) => s.toList
  | _ => []

/-- The parser that gives the character of a scalar value, or refuses a surrogate. -/
def scalarOf (digits : Value) : Parser :=
  let chars := charsOf digits
  let code := hexValue chars
  if 0xD800 ≤ code ∧ code ≤ 0xDFFF then
    .fail (.message
      ("Invalid surrogate code point: U+" ++ String.ofList (chars.map Char.toUpper)))
  else .succeed (.text (String.singleton (Char.ofNat code)))

def digitsError (offset : Int) : Diagnostic :=
  ⟨"Invalid Unicode escape (expected " ++ Nat.repr escapeDigits ++ " hex digits)", offset,
    ["0-9", "a-f", "A-F"], none⟩

/-- Four hexadecimal digits, read as a scalar value. -/
def scalarEscape : Parser :=
  .chain
    (.mapError
      (.exactly escapeDigits (.rune (fun c => .value (hexDigit? c).isSome) none "hex digit"))
      fun cursor => .value (.record (digitsError cursor.offset)))
    scalarOf

/-- What follows the rune behind a backslash. -/
def escapeBody (rune : Value) : Parser :=
  match charsOf rune with
  | ['u'] => scalarEscape
  | [c] =>
    match simpleEscapes.lookup c with
    | some meaning => .succeed (.text (String.singleton meaning))
    | none => .fail (.message ("Invalid escape sequence: \\" ++ String.singleton c))
  | _ => .fail (.message "Invalid escape sequence: \\")

def escape : Parser :=
  .map
    (.sequence [.discard (.literal backslashText), .chain .anyRune escapeBody] true)
    fun results => .value (results.item 0)

def plain : Parser :=
  .rune (fun c => .value (c != '"' && c != '\\')) none "string character"

def unterminated (offset : Int) : Diagnostic :=
  ⟨"Unterminated string literal", offset, [quoteText], none⟩

/-- Why the closing quote is missing: the escape that stands there fails, or the string just ends.
-/
def closingComplaint (cursor : Cursor) : Outcome Complaint := do
  let here := cursor.fresh
  if here.readBytes 1 = Text.Utf8.encode backslashText then
    let tried ← (Grammar.ofParser escape).run here
    match tried.error with
    | some error => return .record error
    | none => return .record (unterminated cursor.offset)
  else return .record (unterminated cursor.offset)

/-- An escaped string; the result is the text that it stands for. -/
def parser : Parser :=
  .named
    (.between (.literal quoteText) (.mapError (.literal quoteText) closingComplaint)
      (.map (.many (.choice [escape, plain])) fun results => .ofExcept results.join))
    "ESCAPED_STRING"

/-- Holds where no byte is left; unlike the assertion for the end of a source it does not leave one
byte over. -/
def atEnd : Parser :=
  .custom "at_end" fun cursor =>
    .value (if cursor.atEnd then cursor else cursor.withError (.expectedEndOfInput cursor.offset))

def whole : Parser :=
  .map (.sequence [parser, atEnd] false) fun results => .value (results.item 0)

/-- Reads one escaped string that takes up all the bytes. -/
def read (bytes : Array UInt8) : Outcome Value := do
  let cursor ← (Engine.usual.parseBytes (Grammar.ofParser whole) bytes).outcome
  .ofExcept cursor.unwrap

end Scannerless.Grammar.EscapedString
