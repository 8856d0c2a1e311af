import Scannerless.Parser.Whitespace
import Scannerless.Proofs.Calls
import Scannerless.Proofs.Peg.Expression

/-!
# Parsers read as parsing expressions

The parsers of a grammar are the nonterminals of a parsing expression grammar, and the rule of a
parser says what it does with the parsers that it calls. Results and wordings of failures are not
part of the reading. A chain, whose second half depends on a result, has no reading, nor has the
author's own function; a parser that must not be built has none either.
-/
namespace Scannerless

/-- The answer of a predicate that has one, and otherwise no. -/
def Outcome.holds : Outcome Bool → Bool
  | value accepted => accepted
  | _ => false

namespace Peg

/-- What the matchers at the leaves recognise. -/
inductive Terminal where
  | rune (accepts : Char → Bool)
  | literal (text : String)
  | foldedLiteral (text : String)
  | startOfInput
  | endOfInput
  | startOfLine

/-- Where a terminal that matches at an offset of a source ends. The assertions end where they
start. -/
def Terminal.ends (source : Source) : Terminal → Int → Option Int
  | rune accepts, o =>
    match source.readRune o with
    | some (c, width) => if accepts c then some (o + width) else none
    | none => none
  | literal text, o =>
    let bytes := Text.Utf8.encode text
    if source.read o bytes.length = bytes then some (o + bytes.length) else none
  | foldedLiteral text, o =>
    let size := (Text.Utf8.encode text).length
    if Cursor.foldsTo text size (source.read o size) then some (o + size) else none
  | startOfInput, o => if o = 0 then some o else none
  | endOfInput, o => if source.read (o + 1) 1 = [] then some o else none
  | startOfLine, o => if o = 0 ∨ source.read (o - 1) 1 = [newline] then some o else none

theorem Terminal.ends_rune_eq_some_iff {source : Source} {accepts : Char → Bool} {o m : Int} :
    ends source (.rune accepts) o = some m ↔
      ∃ c width, source.readRune o = some (c, width) ∧ accepts c = true ∧ m = o + width := by
  constructor
  · intro h
    rw [ends] at h
    split at h
    · rename_i c width hread
      split at h
      · rename_i haccepts
        exact ⟨c, width, hread, haccepts, (Option.some.inj h).symm⟩
      · cases h
    · cases h
  · rintro ⟨c, width, hread, haccepts, rfl⟩
    simp [ends, hread, haccepts]

/-- The terminal fails where there is no rune or one that is refused. -/
theorem Terminal.ends_rune_eq_none {source : Source} {accepts : Char → Bool} {o : Int}
    (h : ∀ c width, source.readRune o = some (c, width) → accepts c = false) :
    ends source (.rune accepts) o = none := by
  cases hread : source.readRune o with
  | none => simp [ends, hread]
  | some rune => simp [ends, hread, h _ _ hread]

end Peg

namespace Parser

open Peg

/-- The rule of a parser. -/
def reading (definitions : Definitions) : Parser → Option (Expression Parser Terminal)
  | rune accepts _ _ => some (.terminal (.rune fun c => (accepts c).holds))
  | runes accepts _ _ => some (.plus (.terminal (.rune fun c => (accepts c).holds)))
  | runeCount count => some (.copies count (.terminal (.rune fun _ => true)))
  | literal text => some (.terminal (.literal text))
  | foldedLiteral text => some (.terminal (.foldedLiteral text))
  | succeed _ => some .empty
  | fail _ => some .fail
  | startOfInput => some (.terminal .startOfInput)
  | endOfInput => some (.terminal .endOfInput)
  | startOfLine => some (.terminal .startOfLine)
  | sequence parts _ => some (.seqAll (parts.map .nonterminal))
  | choice alternatives => some (.choiceAll (alternatives.map .nonterminal))
  | many body => some (.star (.nonterminal body))
  | many1 body => some (.plus (.nonterminal body))
  | exactly count body => some (.copies count (.nonterminal body))
  | upTo 0 _ => some .empty
  | upTo (count + 1) body => some (.seq (.nonterminal body) (.atMost count (.nonterminal body)))
  | untilStop stop body =>
    some
      (.seq (.star (.seq (.not (.nonterminal stop)) (.nonterminal body)))
        (.ahead (.nonterminal stop)))
  | optional body => some (.option (.nonterminal body))
  | peek body => some (.ahead (.nonterminal body))
  | map body _ => some (.nonterminal body)
  | mapIndexed body _ => some (.nonterminal body)
  | mapError body _ => some (.nonterminal body)
  | tagged body _ => some (.nonterminal body)
  | named body _ => some (.nonterminal body)
  | definition name => some (.nonterminal (definitions.find name))
  | chain _ _ => none
  | custom _ _ => none
  | invalid _ => none

/-- A parser whose behaviour a parsing expression can tell: a parser of the library that is not a
chain. -/
def IsExpression : Parser → Prop
  | chain _ _ => False
  | custom _ _ => False
  | _ => True

/-- The parsing expression grammar of some definitions derives `out` for an expression. -/
abbrev DerivesOn (definitions : Definitions) (source : Source) :
    Expression Parser Terminal → Int → Option Int → Prop :=
  Derives (reading definitions) (Terminal.ends source)

section Derived

variable {definitions : Definitions} {source : Source} {o : Int} {out : Option Int}

theorem derives_nonterminal_iff {p : Parser} {e : Expression Parser Terminal}
    (hrule : reading definitions p = some e) :
    DerivesOn definitions source (.nonterminal p) o out ↔ DerivesOn definitions source e o out := by
  constructor
  · intro h
    cases h with
    | nonterminal hrule' h =>
      rw [hrule] at hrule'
      obtain rfl := Option.some.inj hrule'
      exact h
  · intro h
    exact .nonterminal hrule h

/-! The parsers that are put together from others are read as they are put together. -/

theorem derives_named_map_iff {p : Parser} {e : Expression Parser Terminal}
    (hrule : reading definitions p = some e) (transform : Value → Outcome Value) (name : String) :
    DerivesOn definitions source (.nonterminal (.named (.map p transform) name)) o out ↔
      DerivesOn definitions source e o out := by
  rw [derives_nonterminal_iff (p := .named ..) rfl, derives_nonterminal_iff (p := .map ..) rfl]
  exact derives_nonterminal_iff hrule

theorem derives_between_iff (left right content : Parser) :
    DerivesOn definitions source (.nonterminal (between left right content)) o out ↔
      DerivesOn definitions source
        (.seqAll [.nonterminal left, .nonterminal content, .nonterminal right]) o out :=
  derives_named_map_iff rfl _ _

theorem derives_lexeme_iff (body : Parser) :
    DerivesOn definitions source (.nonterminal (lexeme body)) o out ↔
      DerivesOn definitions source (.seqAll [.nonterminal body, .nonterminal ignoreWhitespace]) o
        out :=
  derives_named_map_iff rfl _ _

theorem derives_untilText_iff (stop body : Parser) :
    DerivesOn definitions source (.nonterminal (untilText stop body)) o out ↔
      DerivesOn definitions source
        (.seq (.star (.seq (.not (.nonterminal stop)) (.nonterminal body)))
          (.ahead (.nonterminal stop))) o out :=
  derives_named_map_iff rfl _ _

end Derived

end Parser

/-- Success with the offset of the cursor, or failure. -/
def Cursor.verdict (c : Cursor) : Option Int :=
  if c.failed then none else some c.offset

namespace Cursor

theorem verdict_of_failed {c : Cursor} (h : c.failed = true) : c.verdict = none :=
  if_pos h

theorem verdict_of_not_failed {c : Cursor} (h : c.failed = false) : c.verdict = some c.offset := by
  simp [verdict, h]

theorem verdict_withResult {c : Cursor} (h : c.failed = false) (v : Value) (o : Int) :
    (c.withResult v o).verdict = some o :=
  verdict_of_not_failed (c := c.withResult v o) h

theorem verdict_eq_none_iff {c : Cursor} : c.verdict = none ↔ c.failed = true := by
  cases h : c.failed <;> simp [verdict, h]

theorem verdict_eq_some_iff {c : Cursor} {o : Int} :
    c.verdict = some o ↔ c.failed = false ∧ c.offset = o := by
  cases h : c.failed <;> simp [verdict, h]

end Cursor

end Scannerless
