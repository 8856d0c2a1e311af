/-!
# Numerals

The written forms of integers: plain decimal, decimal in groups of three digits, decimal aligned to
the right, and hexadecimal of a fixed width.
-/
namespace Scannerless.Text.Numeral

def sign (n : Int) : String :=
  if n < 0 then "-" else ""

def decimal (n : Int) : String :=
  sign n ++ Nat.repr n.natAbs

/-- Puts a comma after every third digit; the digits come last first. -/
def groupReversed : List Char → List Char
  | a :: b :: c :: d :: rest => a :: b :: c :: ',' :: groupReversed (d :: rest)
  | short => short

def grouped (n : Int) : String :=
  sign n ++ String.ofList (groupReversed (Nat.toDigits 10 n.natAbs).reverse).reverse

/-- The decimal form of an integer, blanks in front where it has fewer than `width` characters. -/
def aligned (width : Nat) (n : Int) : String :=
  String.ofList ((decimal n).toList.leftpad width ' ')

/-- The hexadecimal digits of a number in lower case, zeros in front where there are fewer than
`width`. -/
def hex (width n : Nat) : List Char :=
  (Nat.toDigits 16 n).leftpad width '0'

end Scannerless.Text.Numeral
