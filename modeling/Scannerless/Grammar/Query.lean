import Scannerless.Cursor.Report
import Scannerless.Parser.Run
import Scannerless.Parser.Whitespace

/-!
# Queries

A small query language: the keyword `select` in any case, white space, and words up to the end. A
word is a run of letters, or any text in double quotes. The keyword and the white space behind it
come as tokens with their spans, the words as texts.
-/
namespace Scannerless.Grammar.Query

def quoteText : String := "\""

def quoted : Parser :=
  .between (.literal quoteText) (.literal quoteText) (.untilText (.literal quoteText) .anyRune)

/-- A word and the white space behind it. -/
def word : Parser :=
  .named
    (.map (.sequence [.choice [quoted, .letters], .ignoreWhitespace] true)
      fun results => .value (results.item 0))
    "word"

/-- Why a query that does not start with the keyword is refused. -/
def keywordComplaint (cursor : Cursor) : Outcome Complaint := do
  let position ← .ofExcept cursor.position
  return .message ("query must start with SELECT (line " ++ Nat.repr position.line ++ ")")

def keyword : Parser :=
  .mapError (.tagged (.foldedLiteral "select") "SELECT") keywordComplaint

def parser : Parser :=
  .named
    (.sequence
      [keyword, .tagged (.many .space) "WHITE-SPACE", .many word, .discard .endOfInput] true)
    "query"

end Scannerless.Grammar.Query
