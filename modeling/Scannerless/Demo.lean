import Scannerless.Engine
import Scannerless.Grammar.Query
import Scannerless.Value.Written

/-!
# Demonstration

Four short examples over the query grammar, each as the text that it prints: a query taken apart, a
keyword in mixed case, the report of a failure, and a query read from a file.
-/
namespace Scannerless.Demo

def corpus : String :=
  "select this \"this is a quoted string\"   from table"

/-- Lines of text, each ended by a newline. -/
def lines (rows : List String) : String :=
  String.join (rows.map (· ++ "\n"))

def heading (title : String) : List String :=
  let rule := String.ofList (List.replicate 60 '=')
  [rule, title, rule]

def grammar : Grammar := .ofParser Grammar.Query.parser

/-- The cursor at the end of a parse; a parse that gives none counts as one over no text. -/
def lastCursor (transcript : Transcript) : Cursor :=
  match transcript.outcome with
  | .value cursor => cursor
  | _ => .ofSource (.ofText "")

def parse (text : String) : Cursor :=
  lastCursor (Engine.usual.parseText grammar text)

def content : Value → Value
  | .token _ value _ => value
  | _ => .nothing

/-- The label and the span of a token as they are printed. -/
def labelAndSpan : Value → String × String
  | .token label _ span => (label, span.written)
  | _ => ("", "")

/-- The items of a tuple in brackets. -/
def writtenWords : Value → String
  | .tuple items => Value.writtenList items
  | value => value.written

/-- A text that can be given, or why it cannot. -/
def textOf : Except Fault String → String
  | .ok text => text
  | .error fault => fault.message

def queryParts : String :=
  let cursor := parse corpus
  let keyword := cursor.result.item 0
  let blanks := cursor.result.item 1
  let words := cursor.result.item 2
  lines (heading "Example 1: Parse a Query" ++
    [ corpus,
      "keyword:    " ++ (labelAndSpan keyword).1 ++ " " ++ (content keyword).written ++ " at " ++
        (labelAndSpan keyword).2,
      "whitespace: " ++ (labelAndSpan blanks).1 ++ " " ++
        Nat.repr ((content blanks).length?.getD 0) ++ " rune(s) at " ++ (labelAndSpan blanks).2,
      "words:      " ++ writtenWords words,
      "offset:     " ++ Text.Numeral.decimal cursor.offset ++ " of " ++
        Nat.repr (Text.Utf8.encode corpus).length ++ " bytes" ])

/-- A keyword in mixed case; its result is the grammar's own spelling. -/
def mixedCase : String :=
  let cursor := parse "SeLeCt name FROM people"
  lines ("" :: heading "Example 2: Case-Insensitive Keyword" ++
    [ "keyword value: " ++ (content (cursor.result.item 0)).written,
      "words:         " ++ writtenWords (cursor.result.item 2) ])

/-- The report of a query that breaks off at a comma. -/
def failureReport : String :=
  let cursor := parse "select name\n  age, email from people"
  lines ("" :: heading "Example 3: Error Reporting" ++
    [ "failed:   " ++ (Value.bool cursor.failed).written,
      "describe: " ++ textOf cursor.describe,
      "",
      textOf (cursor.report Cursor.usualContext) ])

def queryFromFile : String :=
  let tree := FileTree.ofFiles [("query.txt", (Text.Utf8.encode corpus).toArray)]
  let cursor := lastCursor (Engine.usual.parseFile grammar tree "query.txt")
  lines ("" :: heading "Example 4: Parse a File" ++
    [ "words from file: " ++ writtenWords (cursor.result.item 2) ])

def everything : String :=
  queryParts ++ mixedCase ++ failureReport ++ queryFromFile

end Scannerless.Demo
