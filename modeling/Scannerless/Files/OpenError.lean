/-!
# Why a file cannot be opened

Each cause with the number and the wording under which systems report it.
-/
namespace Scannerless

/-- The causes for which opening a file is refused. -/
inductive OpenError where
  /-- A part of the path does not exist, or the path is empty. -/
  | notFound
  /-- A part of the path that should lead further is a file. -/
  | notADirectory
  /-- The path ends at a directory. -/
  | isADirectory
  /-- The path, or one of its parts, is longer than the system allows. -/
  | nameTooLong
  deriving Repr, DecidableEq

namespace OpenError

def number : OpenError → Nat
  | notFound => 2
  | notADirectory => 20
  | isADirectory => 21
  | nameTooLong => 36

def reason : OpenError → String
  | notFound => "No such file or directory"
  | notADirectory => "Not a directory"
  | isADirectory => "Is a directory"
  | nameTooLong => "File name too long"

end OpenError

end Scannerless
