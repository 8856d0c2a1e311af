import Scannerless.Engine

/-!
# Parsing through a handle

A file as a source answers every read as if the file stood where it was opened. Here the same parse
is written with the handle itself: each read moves the position, the next one starts from wherever
that has left it, and the functions of the author, which may read as well, leave it anywhere. What
the parse does with the answers is word for word the same.
-/
namespace Scannerless

/-- A computation that reads through a handle. -/
abbrev Handled (α : Type) := StateT OpenFile Outcome α

namespace Handled

/-- Reads at an offset, which moves the handle. -/
def readAt (offset length : Int) : Handled (List UInt8) :=
  fun file => .value (file.readAt offset length)

/-- The number of bytes, which is known from the start. -/
def size : Handled Nat :=
  fun file => .value (file.contents.size, file)

/-- Calls a function of the author on a cursor that reads through the handle. The position that the
function leaves is `drift`. -/
def call {α : Type} (drift : OpenFile → Cursor → Nat) (f : Cursor → Outcome α) (cursor : Cursor) :
    Handled α :=
  fun file => do
    let a ← f { cursor with source := file.source }
    return (a, file.seek (drift file cursor))

/-- What does not read at all. -/
def lift {α : Type} (x : Outcome α) : Handled α :=
  fun file => do
    let a ← x
    return (a, file)

/-! Runes. -/

/-- Tries windows of the given widths in turn. -/
def probe (offset : Int) : (widths : List Nat) → Handled (Option (Char × Nat))
  | [] => pure (some (Text.Utf8.replacementRune, 1))
  | width :: wider => do
    let bytes ← readAt offset width
    if bytes.length < width then return none
    match Text.Utf8.decodeRune bytes with
    | some decoded => return some decoded
    | none => probe offset wider

/-- The rune at an offset and its width in bytes. -/
def readRune (offset : Int) : Handled (Option (Char × Nat)) :=
  probe offset (List.range' 1 Text.Utf8.maxRuneBytes)

/-- Reads `count` more runes. -/
def readRunesFrom :
    (count : Nat) → (offset : Int) → (runes : List Char) → Handled (Option (List Char × Int))
  | 0, offset, runes => pure (some (runes.reverse, offset))
  | count + 1, offset, runes => do
    match ← readRune offset with
    | none => return none
    | some (c, width) => readRunesFrom count (offset + width) (c :: runes)

/-- The next `count` runes and their width in bytes. -/
def readRunes (count : Nat) (offset : Int) : Handled (Option (String × Int)) := do
  match ← readRunesFrom count offset [] with
  | none => return none
  | some (runes, stop) => return some (String.ofList runes, stop - offset)

/-- Reads accepted runes for at most `steps` runes. -/
def runesWhileFrom (accepts : Char → Outcome Bool) :
    (steps : Nat) → (offset : Int) → (runes : List Char) → Handled (List Char × Int)
  | 0, offset, runes => pure (runes.reverse, offset)
  | steps + 1, offset, runes => do
    match ← readRune offset with
    | none => return (runes.reverse, offset)
    | some (c, width) =>
      if ← lift (accepts c) then runesWhileFrom accepts steps (offset + width) (c :: runes)
      else return (runes.reverse, offset)

/-! Matchers. -/

/-- Matches one accepted rune. -/
def matchRune (accepts : Char → Outcome Bool) (complaint : Option Complaint) (what : String)
    (cursor : Cursor) : Handled Cursor := do
  match ← readRune cursor.offset with
  | none => return cursor.refuse complaint (.runeMismatch cursor.offset what)
  | some (c, width) =>
    if ← lift (accepts c) then
      return cursor.withResult (.text (String.singleton c)) (cursor.offset + width)
    else return cursor.refuse complaint (.runeMismatch cursor.offset what)

/-- Matches the longest run of accepted runes. -/
def matchRunes (accepts : Char → Outcome Bool) (complaint : Option Complaint) (what : String)
    (cursor : Cursor) : Handled Cursor := do
  match ← runesWhileFrom accepts (← size) cursor.offset [] with
  | ([], _) => return cursor.refuse complaint (.runesMismatch cursor.offset what)
  | (runes, offset) => return cursor.withResult (.text (String.ofList runes)) offset

/-- Matches a number of runes. -/
def matchRuneCount (count : Nat) (cursor : Cursor) : Handled Cursor := do
  match ← readRunes count cursor.offset with
  | none => return cursor.withError (.runeCountMismatch count cursor.offset)
  | some (runes, width) => return cursor.withResult (.text runes) (cursor.offset + width)

/-- Matches the bytes of a text. -/
def matchLiteral (text : String) (cursor : Cursor) : Handled Cursor := do
  let bytes := Text.Utf8.encode text
  if (← readAt cursor.offset bytes.length) = bytes then
    return cursor.withResult (.text text) (cursor.offset + bytes.length)
  else return cursor.withError (.literalMismatch text cursor.offset)

/-- Matches a text in any case. -/
def matchFoldedLiteral (text : String) (cursor : Cursor) : Handled Cursor := do
  let size := (Text.Utf8.encode text).length
  if Cursor.foldsTo text size (← readAt cursor.offset size) then
    return cursor.withResult (.text text) (cursor.offset + size)
  else return cursor.withError (.literalMismatch text cursor.offset)

/-- Stays where the byte after the next one does not exist. -/
def matchEndOfInput (cursor : Cursor) : Handled Cursor := do
  if (← readAt (cursor.offset + 1) 1).isEmpty then return cursor
  else return cursor.withError (.expectedEndOfInput cursor.offset)

/-- Stays at offset zero and behind a newline. -/
def matchStartOfLine (cursor : Cursor) : Handled Cursor := do
  if cursor.offset = 0 then return cursor
  if (← readAt (cursor.offset - 1) 1) = [newline] then return cursor
  else return cursor.withError (.expectedStartOfLine cursor.offset)

/-! Sequences, choices and repetitions. -/

/-- Runs the parts of a sequence one after the other. -/
def runParts (attempt : Parser → Cursor → Handled Cursor) (dropNothing : Bool) (entry : Cursor) :
    List Parser → (current : Cursor) → (results : List Value) → Handled Cursor
  | [], current, results => pure (entry.collect results current.offset)
  | part :: rest, current, results => do
    let next ← attempt part current
    match next.error with
    | some error => return entry.withError error
    | none =>
      if dropNothing && next.result.isNothing then
        runParts attempt dropNothing entry rest next results
      else runParts attempt dropNothing entry rest next (next.result :: results)

/-- Runs alternatives from the same cursor until one succeeds. -/
def runAlternatives (attempt : Parser → Cursor → Handled Cursor) (entry : Cursor) :
    List Parser → Handled Cursor
  | [] => pure (entry.withError (.noChoiceMatched entry.offset))
  | alternative :: rest => do
    let next ← attempt alternative entry
    if next.failed then runAlternatives attempt entry rest else return next

/-- Repeats an attempt until it fails, for at most `steps` attempts. -/
def repeatAll (attempt : Cursor → Handled Cursor) :
    (steps : Nat) → (current : Cursor) → (results : List Value) → Handled (List Value × Cursor)
  | 0, _, _ => lift .unfinished
  | steps + 1, current, results => do
    let next ← attempt current
    if next.failed then return (results, current)
    else repeatAll attempt steps next (next.result :: results)

/-- Repeats an attempt `left` more times. -/
def repeatExactly (attempt : Cursor → Handled Cursor) (count : Nat) (entry : Cursor) :
    (left : Nat) → (current : Cursor) → (results : List Value) → Handled Cursor
  | 0, current, results => pure (entry.collect results current.offset)
  | left + 1, current, results => do
    let next ← attempt current
    if next.failed then return entry.withError (.repetitionCount count entry.offset)
    else repeatExactly attempt count entry left next (next.result :: results)

/-- Repeats an attempt until it fails or has succeeded `left` more times. -/
def repeatUpTo (attempt : Cursor → Handled Cursor) :
    (left : Nat) → (current : Cursor) → (results : List Value) → Handled Cursor
  | 0, current, results => pure (current.collect results current.offset)
  | left + 1, current, results => do
    let next ← attempt current
    if next.failed then
      if results.isEmpty then return next else return current.collect results current.offset
    else repeatUpTo attempt left next (next.result :: results)

/-- Repeats an attempt until `stop` succeeds, for at most `steps` attempts. -/
def repeatUntil (stop attempt : Cursor → Handled Cursor) :
    (steps : Nat) → (current : Cursor) → (results : List Value) → Handled Cursor
  | 0, _, _ => lift .unfinished
  | steps + 1, current, results => do
    let stopped ← stop current
    if stopped.failed then
      let next ← attempt current
      if next.failed then return stopped
      else repeatUntil stop attempt steps next (next.result :: results)
    else return current.collect results current.offset

/-! Parsers. -/

variable (drift : OpenFile → Cursor → Nat) (definitions : Definitions)

/-- Runs a parser at a cursor that has not failed. -/
def runWith (attempt : Parser → Cursor → Handled Cursor) (steps : Nat) (parser : Parser)
    (cursor : Cursor) : Handled Cursor :=
  match parser with
  | .rune accepts complaint what => matchRune accepts complaint what cursor
  | .runes accepts complaint what => matchRunes accepts complaint what cursor
  | .runeCount count => matchRuneCount count cursor
  | .literal text => matchLiteral text cursor
  | .foldedLiteral text => matchFoldedLiteral text cursor
  | .succeed value => pure (cursor.withResult value cursor.offset)
  | .fail complaint => pure (cursor.complain complaint)
  | .startOfInput => pure cursor.matchStartOfInput
  | .endOfInput => matchEndOfInput cursor
  | .startOfLine => matchStartOfLine cursor
  | .sequence parts dropNothing => runParts attempt dropNothing cursor parts cursor []
  | .choice alternatives => runAlternatives attempt cursor alternatives
  | .chain first next => do
    let matched ← attempt first cursor
    if matched.failed then return matched
    attempt (next matched.result) matched
  | .many body => do
    let (results, current) ← repeatAll (attempt body) steps cursor []
    return current.collect results current.offset
  | .many1 body => do
    let (results, current) ← repeatAll (attempt body) steps cursor []
    if results.isEmpty then return cursor.withError (.noRepetition cursor.offset)
    return current.collect results current.offset
  | .exactly count body => repeatExactly (attempt body) count cursor count cursor []
  | .upTo count body =>
    if count = 0 then pure cursor else repeatUpTo (attempt body) count cursor []
  | .untilStop stop body => repeatUntil (attempt stop) (attempt body) steps cursor []
  | .optional body => do
    let tried ← attempt body cursor
    return if tried.failed then cursor else tried
  | .peek body => do
    let tried ← attempt body cursor
    return if tried.failed then cursor.withError (.wouldNotMatch cursor.offset) else cursor
  | .map body transform => do
    let matched ← attempt body cursor
    if matched.failed then return matched
    return matched.withResult (← lift (transform matched.result)) matched.offset
  | .mapIndexed body transform => do
    let matched ← attempt body cursor
    if matched.failed then return matched
    return matched.withResult (← lift (transform matched.result cursor.offset)) matched.offset
  | .mapError body explain => do
    let matched ← attempt body cursor
    if matched.failed then return matched.complain (← call drift explain matched)
    return matched
  | .tagged body label => do
    let matched ← attempt body cursor
    if matched.failed then return matched
    let span ← lift (.ofExcept (Span.between cursor.offset matched.offset))
    return matched.withResult (.token label matched.result span) matched.offset
  | .named body _ => attempt body cursor
  | .definition name => attempt (definitions.find name) cursor
  | .custom _ action => call drift action cursor
  | .invalid fault => lift (.raised fault)

/-- Runs a parser with a number of levels. -/
def runFor : (levels : Nat) → Parser → Cursor → Handled Cursor
  | 0, _, _ => lift .unfinished
  | levels + 1, parser, cursor =>
    if cursor.failed then pure cursor
    else runWith drift definitions (runFor levels) levels parser cursor

end Handled

/-- Runs a grammar over an open file through its handle, from wherever that stands. The bytes that
the returned cursor keeps are read through the handle as well, behind the parse. -/
def Engine.parseHandle (engine : Engine) (drift : OpenFile → Cursor → Nat) (grammar : Grammar)
    (file : OpenFile) : Transcript :=
  let size := file.contents.size
  if engine.refuses size then ⟨[], .raised (.sourceTooLarge size engine.limit)⟩
  else
    let begun := startRecord file.path size grammar.start
    match Handled.runFor drift grammar.definitions (Grammar.levels file.source) grammar.start
        (.ofSource file.source) file with
    | .value (cursor, after) =>
      let kept := (after.readAt 0 size).1.toArray
      ⟨[begun, endRecord file.path cursor], .value { cursor with source := .ofBytes kept }⟩
    | .raised fault => ⟨[begun], .raised fault⟩
    | .unfinished => ⟨[begun], .unfinished⟩

end Scannerless
