import Scannerless.Cursor.Report
import Scannerless.Files.FileTree
import Scannerless.Parser.Label
import Scannerless.Parser.Run

/-!
# Engines

An engine runs a grammar once over a text or a file. It refuses sources above its limit before it
parses, and it keeps a log of what it does. A grammar that does not match is a failed cursor; only
a source that cannot be read, or is too large, is a fault. The cursor that comes back from a file
stands on a copy of the file in memory.
-/
namespace Scannerless

inductive Severity where
  | debug
  | error
  deriving Repr, DecidableEq

def Severity.name : Severity → String
  | debug => "DEBUG"
  | error => "ERROR"

structure LogRecord where
  severity : Severity
  text : String
  deriving Repr, DecidableEq

/-- What comes of a parse: the log, and the cursor at its end or a fault. -/
structure Transcript where
  log : List LogRecord
  outcome : Outcome Cursor

/-- The limit on the size of sources, in bytes. A limit of zero or less limits nothing. -/
structure Engine where
  limit : Int
  deriving Repr, DecidableEq

namespace Engine

def usualLimit : Int := 10 * 1024 * 1024

def ofLimit? (limit : Option Int) : Engine :=
  ⟨limit.getD usualLimit⟩

def usual : Engine := ofLimit? none

def refuses (engine : Engine) (size : Nat) : Bool :=
  engine.limit > 0 && engine.limit < size

def startRecord (label : String) (size : Nat) (parser : Parser) : LogRecord :=
  ⟨.debug, "Parsing " ++ label ++ " (" ++ Nat.repr size ++ " bytes) with " ++ parser.display⟩

def endRecord (label : String) (cursor : Cursor) : LogRecord :=
  let offset := Text.Numeral.decimal cursor.offset
  match cursor.error with
  | some error =>
    ⟨.debug, "Parse of " ++ label ++ " failed at offset " ++ offset ++ ": " ++ error.message⟩
  | none => ⟨.debug, "Parse of " ++ label ++ " succeeded at offset " ++ offset⟩

/-- The record of a file that cannot be opened. -/
def unavailableRecord (path : String) (cause : OpenError) : LogRecord :=
  ⟨.error, "Failed to open source " ++ path ++ ": [Errno " ++ Nat.repr cause.number ++ "] " ++
    cause.reason ++ ": " ++ Text.Quoted.encode path⟩

/-- Runs a grammar over a source that the log knows by a label. -/
def parseSource (engine : Engine) (grammar : Grammar) (source : Source) (label : String) :
    Transcript :=
  if engine.refuses source.size then ⟨[], .raised (.sourceTooLarge source.size engine.limit)⟩
  else
    let begun := startRecord label source.size grammar.start
    match grammar.run (.ofSource source) with
    | .value cursor => ⟨[begun, endRecord label cursor], .value cursor⟩
    | .raised fault => ⟨[begun], .raised fault⟩
    | .unfinished => ⟨[begun], .unfinished⟩

def parseBytes (engine : Engine) (grammar : Grammar) (bytes : Array UInt8) : Transcript :=
  engine.parseSource grammar (.ofBytes bytes) "<text>"

def parseText (engine : Engine) (grammar : Grammar) (text : String) : Transcript :=
  engine.parseBytes grammar (Text.Utf8.encode text).toArray

/-- Runs a grammar over an open file. -/
def parseOpenFile (engine : Engine) (grammar : Grammar) (file : OpenFile) : Transcript :=
  let transcript := engine.parseSource grammar file.source file.path
  let kept := do
    let cursor ← transcript.outcome
    return { cursor with source := file.source.snapshot }
  { transcript with outcome := kept }

/-- Runs a grammar over the file that a path leads to. -/
def parseFile (engine : Engine) (grammar : Grammar) (tree : FileTree) (path : String) :
    Transcript :=
  if path.toList.contains '\x00' then ⟨[], .raised .nullInPath⟩
  else
    match tree.openFile path with
    | .error cause => ⟨[unavailableRecord path cause], .raised (.sourceUnavailable path cause)⟩
    | .ok file => engine.parseOpenFile grammar file

end Engine

end Scannerless
