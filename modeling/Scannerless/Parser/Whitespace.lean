import Scannerless.Parser.Build

/-!
# White space

Parsers that skip white space, and the parser of a word together with the white space behind it.
-/
namespace Scannerless.Parser

/-- Skips white space; it never fails. -/
def ignoreWhitespace : Parser :=
  .named (discard (.many space)) "IGNORE_WHITESPACE"

/-- Skips white space, of which there must be some. -/
def ignoreWhitespace1 : Parser :=
  .named (discard (.many1 space)) "IGNORE_WHITESPACE1"

def isInlineBlank (c : Char) : Bool :=
  c != '\n' && Text.isBlank c

def inlineSpace : Parser :=
  .runes isInlineBlank none "non-newline whitespace"

/-- The parser and the white space behind it, with the result of the parser. -/
def lexeme (body : Parser) : Parser :=
  .named (.map (.sequence [body, ignoreWhitespace] false) fun results => .value (results.item 0))
    ("lexeme(" ++ body.label ++ ")")

end Scannerless.Parser
