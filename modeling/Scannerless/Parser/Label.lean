import Scannerless.Parser.Basic
import Scannerless.Value.Written

/-!
# Names of parsers

Every parser has a name for logs and displays. A matcher is called by what it matches, a
combinator by its own name and those of its parts, and a parser whose result or failure is only
changed keeps its name.
-/
namespace Scannerless.Parser

mutual

/-- The name of a parser. -/
def label : Parser → String
  | rune _ _ what => what
  | runes _ _ what => what
  | runeCount count => "rune_n(" ++ Nat.repr count ++ ")"
  | literal text => "literal(" ++ Text.Quoted.encode text ++ ")"
  | foldedLiteral text => "literal_insensitive(" ++ Text.Quoted.encode text ++ ")"
  | succeed value => "pure(" ++ value.written ++ ")"
  | fail _ => "fail"
  | startOfInput => "start_of_input"
  | endOfInput => "end_of_input"
  | startOfLine => "start_of_line"
  | sequence parts _ => "sequence_of(" ++ ", ".intercalate (labels parts) ++ ")"
  | choice alternatives => "choice_of(" ++ ", ".intercalate (labels alternatives) ++ ")"
  | chain first _ => "chain(" ++ label first ++ ")"
  | many body => "many(" ++ label body ++ ")"
  | many1 body => "many1(" ++ label body ++ ")"
  | exactly count body => "exactly_n(" ++ Nat.repr count ++ ", " ++ label body ++ ")"
  | upTo count body => "up_to_n(" ++ Nat.repr count ++ ", " ++ label body ++ ")"
  | untilStop stop body => "until(" ++ label stop ++ ")(" ++ label body ++ ")"
  | optional body => "optional(" ++ label body ++ ")"
  | peek body => "peek(" ++ label body ++ ")"
  | map body _ => label body
  | mapIndexed body _ => label body
  | mapError body _ => label body
  | tagged body kind => "tagged(" ++ label body ++ ", " ++ Text.Quoted.encode kind ++ ")"
  | named _ name => name
  | definition name => name
  | custom name _ => name
  | invalid _ => "invalid"

def labels : List Parser → List String
  | [] => []
  | parser :: rest => label parser :: labels rest

end

def display (parser : Parser) : String :=
  "<Parser " ++ parser.label ++ ">"

end Scannerless.Parser
