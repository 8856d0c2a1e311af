import Scannerless.Cursor
import Scannerless.Outcome

/-!
# Parsers

A parser is a term: matchers at the leaves, combinators above them, and the author's own functions
where a grammar needs them. What a parser does is said by `Parser.runFor`; terms of this type are
only described here. Recursion goes through names: a parser may mention a definition of the
grammar.
-/
namespace Scannerless

/-- A predicate on runes that always answers. -/
instance : Coe (Char → Bool) (Char → Outcome Bool) where
  coe accepts := fun c => .value (accepts c)

/-- A parser. -/
inductive Parser where
  /-- One rune that is accepted; `what` names it in the failure where no complaint is given. -/
  | rune (accepts : Char → Outcome Bool) (complaint : Option Complaint) (what : String)
  /-- The longest run of accepted runes, one at least. -/
  | runes (accepts : Char → Outcome Bool) (complaint : Option Complaint) (what : String)
  /-- As many runes as are counted, whichever they are. -/
  | runeCount (count : Nat)
  /-- A text, compared by its bytes. -/
  | literal (text : String)
  /-- A text, compared without regard to case in a window of as many bytes as it has itself. -/
  | foldedLiteral (text : String)
  /-- Success with a value; nothing is read. -/
  | succeed (value : Value)
  /-- Failure; nothing is read. -/
  | fail (complaint : Complaint)
  /-- Holds at the start of the source. -/
  | startOfInput
  /-- Holds where the source has no byte after the next one. -/
  | endOfInput
  /-- Holds at the start of the source and behind a newline. -/
  | startOfLine
  /-- All parts in turn, with the tuple of their results, where those that are nothing may be left
  out. -/
  | sequence (parts : List Parser) (dropNothing : Bool)
  /-- The first alternative that succeeds. -/
  | choice (alternatives : List Parser)
  /-- A parser, and then the one that its result calls for. -/
  | chain (first : Parser) (next : Value → Parser)
  /-- As many repetitions as succeed. -/
  | many (body : Parser)
  /-- As many repetitions as succeed, one at least. -/
  | many1 (body : Parser)
  /-- As many repetitions as are counted. -/
  | exactly (count : Nat) (body : Parser)
  /-- As many repetitions as succeed, one at least and not more than are counted. -/
  | upTo (count : Nat) (body : Parser)
  /-- Repetitions until `stop` would succeed, which is looked at before each of them. -/
  | untilStop (stop body : Parser)
  /-- The parser if it succeeds, and otherwise nothing at all. -/
  | optional (body : Parser)
  /-- Whether the parser would succeed; nothing is read. -/
  | peek (body : Parser)
  /-- The parser with another result. -/
  | map (body : Parser) (transform : Value → Outcome Value)
  /-- The parser with another result, found from its result and the offset where it started. -/
  | mapIndexed (body : Parser) (transform : Value → Int → Outcome Value)
  /-- The parser with another failure, found from the failed cursor. -/
  | mapError (body : Parser) (explain : Cursor → Outcome Complaint)
  /-- The parser with a token as its result, which holds its result and span. -/
  | tagged (body : Parser) (label : String)
  /-- The parser under another name. -/
  | named (body : Parser) (name : String)
  /-- A definition of the grammar. -/
  | definition (name : String)
  /-- The author's own function. -/
  | custom (name : String) (action : Cursor → Outcome Cursor)
  /-- What stands in for a parser that must not be built; running it raises the fault. -/
  | invalid (fault : Fault)

namespace Parser

/-- A parser that was built, or the parser that raises why it was not. -/
def orInvalid : Except Fault Parser → Parser
  | .ok parser => parser
  | .error fault => .invalid fault

end Parser

/-- Parsers under the names by which others mention them. -/
abbrev Definitions := List (String × Parser)

/-- The parser that a name stands for. A name that stands for nothing gives no parser. -/
def Definitions.find (definitions : Definitions) (name : String) : Parser :=
  (definitions.lookup name).getD (.invalid (.notAParser .nothing))

end Scannerless
