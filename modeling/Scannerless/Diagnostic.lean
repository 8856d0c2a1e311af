import Scannerless.Text.Quoted

/-!
# Diagnostics

A parse fails with one record, whatever failed: a message, the byte offset of the step that failed,
what was expected there, and a code if one of the library's own matchers or combinators failed. The
wording of those failures is given here and nowhere else.
-/
namespace Scannerless

/-- The failures that the library itself reports, and the source that cannot be opened. -/
inductive Diagnostic.Code where
  | runeMismatch
  | runesMismatch
  | literalMismatch
  | runeCountMismatch
  | noChoiceMatched
  | noRepetition
  | repetitionCount
  | wouldNotMatch
  | expectedStartOfInput
  | expectedEndOfInput
  | expectedStartOfLine
  | sourceUnavailable
  deriving Repr, DecidableEq

namespace Diagnostic.Code

/-- All codes: matchers first, then combinators, assertions and sources. -/
def all : List Code :=
  [runeMismatch, runesMismatch, literalMismatch, runeCountMismatch, noChoiceMatched, noRepetition,
    repetitionCount, wouldNotMatch, expectedStartOfInput, expectedEndOfInput, expectedStartOfLine,
    sourceUnavailable]

/-- The number of a code. Matchers stand from 1000 on, combinators from 2000, assertions from 3000
and sources from 4000. -/
def number : Code → Nat
  | runeMismatch => 1001
  | runesMismatch => 1002
  | literalMismatch => 1003
  | runeCountMismatch => 1004
  | noChoiceMatched => 2001
  | noRepetition => 2002
  | repetitionCount => 2003
  | wouldNotMatch => 2004
  | expectedStartOfInput => 3001
  | expectedEndOfInput => 3002
  | expectedStartOfLine => 3003
  | sourceUnavailable => 4001

theorem mem_all (code : Code) : code ∈ all := by
  cases code <;> simp [all]

end Diagnostic.Code

/-- A parse failure. The offset is where the failing step stood, which can lie ahead of the cursor
that carries the record. -/
structure Diagnostic where
  message : String
  offset : Int
  expected : List String
  code : Option Diagnostic.Code
  deriving Repr, DecidableEq

namespace Diagnostic

def expectation (item : String) : String :=
  "'" ++ item ++ "'"

/-- The record in one line, behind a line and a column that are already known. -/
def format (d : Diagnostic) (line column : Int) : String :=
  let head := Text.Numeral.decimal line ++ ":" ++ Text.Numeral.decimal column ++ ": " ++ d.message
  match d.expected with
  | [] => head
  | expected => head ++ " (expected: " ++ ", ".intercalate (expected.map expectation) ++ ")"

def runeMismatch (offset : Int) (what : String) : Diagnostic :=
  ⟨"unable to match " ++ what, offset, [], some .runeMismatch⟩

/-- Not one rune was accepted at the offset. -/
def runesMismatch (offset : Int) (what : String) : Diagnostic :=
  ⟨"failed to match any " ++ what, offset, [], some .runesMismatch⟩

def literalMismatch (text : String) (offset : Int) : Diagnostic :=
  ⟨"unable to match " ++ Text.Quoted.encode text, offset, [text], some .literalMismatch⟩

/-- Fewer runes remain than were asked for. -/
def runeCountMismatch (count : Int) (offset : Int) : Diagnostic :=
  ⟨"unable to match " ++ Text.Numeral.decimal count ++ " runes", offset, [],
    some .runeCountMismatch⟩

/-- Every alternative failed; what each of them reported is not kept. -/
def noChoiceMatched (offset : Int) : Diagnostic :=
  ⟨"did not match any choice", offset, [], some .noChoiceMatched⟩

def noRepetition (offset : Int) : Diagnostic :=
  ⟨"failed to match at least once", offset, [], some .noRepetition⟩

/-- A repetition of fixed length ended too soon. -/
def repetitionCount (count : Int) (offset : Int) : Diagnostic :=
  ⟨"failed to match " ++ Text.Numeral.decimal count ++ " times", offset, [], some .repetitionCount⟩

def wouldNotMatch (offset : Int) : Diagnostic :=
  ⟨"would not match", offset, [], some .wouldNotMatch⟩

def expectedStartOfInput (offset : Int) : Diagnostic :=
  ⟨"expected start of input", offset, [], some .expectedStartOfInput⟩

def expectedEndOfInput (offset : Int) : Diagnostic :=
  ⟨"expected end of input", offset, [], some .expectedEndOfInput⟩

def expectedStartOfLine (offset : Int) : Diagnostic :=
  ⟨"expected start of line", offset, [], some .expectedStartOfLine⟩

end Diagnostic

/-- What the author of a grammar gives as a failure: a bare message, which takes the offset where
the failure happens, or a whole record. -/
inductive Complaint where
  | message (text : String)
  | record (diagnostic : Diagnostic)
  deriving Repr, DecidableEq

namespace Complaint

/-- The complaint as a record. A record keeps its own offset. -/
def anchored (offset : Int) : Complaint → Diagnostic
  | message text => ⟨text, offset, [], none⟩
  | record diagnostic => diagnostic

/-- The complaint as a record at the offset, whichever offset a record had. -/
def moved (offset : Int) : Complaint → Diagnostic
  | message text => ⟨text, offset, [], none⟩
  | record diagnostic => { diagnostic with offset }

end Complaint

end Scannerless
