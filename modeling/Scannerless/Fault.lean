import Scannerless.Diagnostic
import Scannerless.Files.OpenError
import Scannerless.Value.Kind

/-!
# Faults

A grammar that does not match is a failed cursor and no fault. A fault is a misuse of the library (a
parser that must not be built, a question that has no answer), a source that cannot be read, or a
failure that the caller asked to have raised. Each cause is a constructor, and its wording stands in
`Fault.message`.
-/
namespace Scannerless

/-- The causes for which an operation gives no answer. -/
inductive Fault where
  /-- A literal of no characters would match without advancing. -/
  | emptyLiteral
  /-- A sequence of no parsers. -/
  | emptySequence
  /-- A choice between no parsers. -/
  | emptyChoice
  /-- A number of runes below zero. -/
  | negativeRuneCount (count : Int)
  /-- A number of repetitions below zero. -/
  | negativeRepetition (count : Int)
  /-- A definition holds a value where a parser belongs. -/
  | notAParser (kind : Value.Kind)
  /-- Only a text or a tuple can be joined. -/
  | notJoinable
  /-- A tuple that is joined holds an item that is no text. -/
  | itemNotText (index : Nat) (kind : Value.Kind)
  /-- A span would start before the source. -/
  | negativeSpanStart (start : Int)
  /-- A span would end before it starts. -/
  | reversedSpan (start stop : Int)
  /-- The position of an offset before the source was asked for. -/
  | negativeOffset (offset : Int)
  /-- The bounds of a line that does not exist were asked for. -/
  | noSuchLine
  /-- The report of a cursor that did not fail was asked for. -/
  | notFailed
  /-- The source is larger than the engine accepts. -/
  | sourceTooLarge (size limit : Int)
  /-- A path holds the character with value zero. -/
  | nullInPath
  /-- The source cannot be opened. -/
  | sourceUnavailable (path : String) (cause : OpenError)
  /-- The result of a failed cursor was asked for. -/
  | parseFailed (error : Diagnostic) (line column : Int)
  deriving Repr, DecidableEq

namespace Fault

def unavailableMessage (path reason : String) : String :=
  "unable to open " ++ path ++ ": " ++ reason

def tooLargeMessage (size limit : Int) : String :=
  "Source size (" ++ Text.Numeral.grouped size ++ " bytes) exceeds maximum (" ++
    Text.Numeral.grouped limit ++ " bytes). " ++
    "Configure max_source_size in ParseEngine constructor to increase limit."

def message : Fault → String
  | emptyLiteral => "Literal text must not be empty"
  | emptySequence => "sequence_of requires at least one parser"
  | emptyChoice => "choice_of requires at least one parser"
  | negativeRuneCount count => "Rune count must be >= 0, got " ++ Text.Numeral.decimal count
  | negativeRepetition count => "Repetition count must be >= 0, got " ++ Text.Numeral.decimal count
  | notAParser kind => "lazy factory must return a Parser, got " ++ kind.name
  | notJoinable => "can only join an iterable"
  | itemNotText index kind =>
    "sequence item " ++ Text.Numeral.decimal index ++ ": expected str instance, " ++ kind.name ++
      " found"
  | negativeSpanStart start => "Span start must be >= 0, got " ++ Text.Numeral.decimal start
  | reversedSpan start stop =>
    "Span end (" ++ Text.Numeral.decimal stop ++ ") must be >= start (" ++
      Text.Numeral.decimal start ++ ")"
  | negativeOffset offset => "Offset must be >= 0, got " ++ Text.Numeral.decimal offset
  | noSuchLine => "tuple index out of range"
  | notFailed => "Cursor did not fail; nothing to describe"
  | sourceTooLarge size limit => tooLargeMessage size limit
  | nullInPath => "embedded null byte"
  | sourceUnavailable path cause => unavailableMessage path cause.reason
  | parseFailed error line column => error.format line column

end Fault

end Scannerless
