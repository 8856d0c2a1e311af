import Scannerless.Text.Quoted
import Scannerless.Value

/-!
# The written form of values

How names and printed output show a value: texts in quotes, a tuple in parentheses with a comma
after a single item, a list in brackets, a token and a span with their parts by name.
-/
namespace Scannerless

def Span.written (span : Span) : String :=
  "Span(start=" ++ Text.Numeral.decimal span.start ++ ", end=" ++ Text.Numeral.decimal span.stop ++
    ")"

namespace Value

/-- Items in parentheses; a single one is marked by a comma. -/
def parenthesized : List String → String
  | [item] => "(" ++ item ++ ",)"
  | items => "(" ++ ", ".intercalate items ++ ")"

mutual

def written : Value → String
  | nothing => "None"
  | bool true => "True"
  | bool false => "False"
  | int n => Text.Numeral.decimal n
  | text s => Text.Quoted.encode s
  | tuple items => parenthesized (writtenItems items)
  | token label value span =>
    "Token(kind=" ++ Text.Quoted.encode label ++ ", value=" ++ written value ++ ", span=" ++
      span.written ++ ")"

def writtenItems : List Value → List String
  | [] => []
  | v :: rest => written v :: writtenItems rest

end

/-- Values as a list in brackets. -/
def writtenList (items : List Value) : String :=
  "[" ++ ", ".intercalate (writtenItems items) ++ "]"

end Value

end Scannerless
