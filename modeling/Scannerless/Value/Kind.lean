/-!
# Kinds of values

The kinds that result values have, with the names under which messages speak of them.
-/
namespace Scannerless

/-- What sort of value a value is. -/
inductive Value.Kind where
  | nothing
  | bool
  | int
  | text
  | tuple
  | token
  deriving Repr, DecidableEq

def Value.Kind.name : Value.Kind → String
  | nothing => "NoneType"
  | bool => "bool"
  | int => "int"
  | text => "str"
  | tuple => "tuple"
  | token => "Token"

end Scannerless
