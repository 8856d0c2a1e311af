import Scannerless.Parser.Basic
import Scannerless.Parser.Matching
import Scannerless.Parser.Repetition

/-!
# Running parsers

A parser takes a cursor to a cursor. A failed cursor passes through every parser as it is. Only
choices, options, repetitions, lookahead and replaced failures look at an attempt that failed;
everything else hands the failure on.

A grammar may be recursive and may repeat what reads nothing, so a run need not end. It is given a
number of levels: each parser runs its parts with one level less and repeats them no more often
than it has levels left. A run that ends gives the same answer with any greater number.
-/
namespace Scannerless.Parser

/-- Runs a parser at a cursor that has not failed. Its parts are run by `attempt`, and repetitions
without a bound of their own take no more than `steps` steps. -/
def runWith (definitions : Definitions) (attempt : Parser → Cursor → Outcome Cursor) (steps : Nat)
    (parser : Parser) (cursor : Cursor) : Outcome Cursor :=
  match parser with
  | rune accepts complaint what => cursor.matchRune accepts complaint what
  | runes accepts complaint what => cursor.matchRunes accepts complaint what
  | runeCount count => .value (cursor.matchRuneCount count)
  | literal text => .value (cursor.matchLiteral text)
  | foldedLiteral text => .value (cursor.matchFoldedLiteral text)
  | succeed value => .value (cursor.withResult value cursor.offset)
  | fail complaint => .value (cursor.complain complaint)
  | startOfInput => .value cursor.matchStartOfInput
  | endOfInput => .value cursor.matchEndOfInput
  | startOfLine => .value cursor.matchStartOfLine
  | sequence parts dropNothing => cursor.runParts attempt dropNothing parts cursor []
  | choice alternatives => cursor.runAlternatives attempt alternatives
  | chain first next => do
    let matched ← attempt first cursor
    if matched.failed then return matched
    attempt (next matched.result) matched
  | many body => do
    let (results, current) ← Cursor.repeatAll (attempt body) steps cursor []
    return current.collect results current.offset
  | many1 body => do
    let (results, current) ← Cursor.repeatAll (attempt body) steps cursor []
    if results.isEmpty then return cursor.withError (.noRepetition cursor.offset)
    return current.collect results current.offset
  | exactly count body => cursor.repeatExactly (attempt body) count count cursor []
  | upTo count body =>
    if count = 0 then .value cursor else Cursor.repeatUpTo (attempt body) count cursor []
  | untilStop stop body => Cursor.repeatUntil (attempt stop) (attempt body) steps cursor []
  | optional body => do
    let tried ← attempt body cursor
    return if tried.failed then cursor else tried
  | peek body => do
    let tried ← attempt body cursor
    return if tried.failed then cursor.withError (.wouldNotMatch cursor.offset) else cursor
  | map body transform => do
    let matched ← attempt body cursor
    if matched.failed then return matched
    return matched.withResult (← transform matched.result) matched.offset
  | mapIndexed body transform => do
    let matched ← attempt body cursor
    if matched.failed then return matched
    return matched.withResult (← transform matched.result cursor.offset) matched.offset
  | mapError body explain => do
    let matched ← attempt body cursor
    if matched.failed then return matched.complain (← explain matched)
    return matched
  | tagged body label => do
    let matched ← attempt body cursor
    if matched.failed then return matched
    let span ← .ofExcept (Span.between cursor.offset matched.offset)
    return matched.withResult (.token label matched.result span) matched.offset
  | named body _ => attempt body cursor
  | definition name => attempt (definitions.find name) cursor
  | custom _ action => action cursor
  | invalid fault => .raised fault

/-- Runs a parser with a number of levels. -/
def runFor (definitions : Definitions) : (levels : Nat) → Parser → Cursor → Outcome Cursor
  | 0, _, _ => .unfinished
  | levels + 1, parser, cursor =>
    if cursor.failed then .value cursor
    else runWith definitions (runFor definitions levels) levels parser cursor

end Parser

/-- A parser together with the definitions that it and they mention. -/
structure Grammar where
  start : Parser
  definitions : Definitions

namespace Grammar

/-- The grammar of a parser that mentions no definitions. -/
def ofParser (parser : Parser) : Grammar := ⟨parser, []⟩

/-- The number of levels that a run over a source is given. No grammar that ends on the source
within any time comes near it. -/
def levels (source : Source) : Nat :=
  0x100000000 * (source.size + 2)

/-- Runs the grammar from a cursor. -/
def run (grammar : Grammar) (cursor : Cursor) : Outcome Cursor :=
  grammar.start.runFor grammar.definitions (levels cursor.source) cursor

end Grammar

end Scannerless
