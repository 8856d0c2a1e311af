import Scannerless.Parser.Label
import Scannerless.Text.Blank
import Scannerless.Text.DecimalDigit
import Scannerless.Text.Letter

/-!
# Building parsers

Parsers with conditions on their parts, which are refused with a fault where the conditions fail,
and parsers that are put together from others.
-/
namespace Scannerless.Parser

/-- A text compared by its bytes. An empty text would match without advancing and is refused. -/
def mkLiteral (text : String) : Except Fault Parser :=
  if text = "" then .error .emptyLiteral else .ok (.literal text)

def mkFoldedLiteral (text : String) : Except Fault Parser :=
  if text = "" then .error .emptyLiteral else .ok (.foldedLiteral text)

def mkRuneCount (count : Int) : Except Fault Parser :=
  if count < 0 then .error (.negativeRuneCount count) else .ok (.runeCount count.toNat)

def mkSequence (parts : List Parser) (dropNothing : Bool) : Except Fault Parser :=
  if parts.isEmpty then .error .emptySequence else .ok (.sequence parts dropNothing)

def mkChoice (alternatives : List Parser) : Except Fault Parser :=
  if alternatives.isEmpty then .error .emptyChoice else .ok (.choice alternatives)

def mkExactly (count : Int) (body : Parser) : Except Fault Parser :=
  if count < 0 then .error (.negativeRepetition count) else .ok (.exactly count.toNat body)

def mkUpTo (count : Int) (body : Parser) : Except Fault Parser :=
  if count < 0 then .error (.negativeRepetition count) else .ok (.upTo count.toNat body)

def anyRune : Parser :=
  .rune (fun _ => .value true) none "any rune"

def digit : Parser :=
  .rune Text.isDecimalDigit none "digit"

def letter : Parser :=
  .rune Text.isLetter none "letter"

def letters : Parser :=
  .runes Text.isLetter none "letters"

def space : Parser :=
  .rune Text.isBlank none "space"

def discard (body : Parser) : Parser :=
  .named (.map body fun _ => .value .nothing) ("discard(" ++ body.label ++ ")")

/-- Three parsers in turn with the result of the middle one. -/
def between (left right content : Parser) : Parser :=
  .named (.map (.sequence [left, content, right] false) fun results => .value (results.item 1))
    ("between(" ++ left.label ++ ", " ++ right.label ++ ")(" ++ content.label ++ ")")

/-- Repetitions until `stop` would succeed, with their results joined to one text. -/
def untilText (stop body : Parser) : Parser :=
  .named (.map (.untilStop stop body) fun results => .ofExcept results.join)
    ("until_string(" ++ stop.label ++ ")")

end Scannerless.Parser
