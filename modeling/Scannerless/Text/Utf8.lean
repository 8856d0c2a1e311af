/-!
# UTF-8

Encoding, and one scan of the front of a byte string. A scan ends with a scalar value, with the
end of the bytes inside a sequence that more bytes could complete, or with bytes that nothing can
complete. The strict decoder and the replacing decoder read off this scan, so they agree on what is
well formed: no overlong form, no surrogate, nothing above U+10FFFF. The first rune of a window is
found by decoding all of it strictly, and from where and why that stops.
-/
namespace Scannerless.Text.Utf8

/-- The longest encoding of a scalar value, in bytes. -/
def maxRuneBytes : Nat := 4

/-- The rune that stands for bytes that encode nothing. -/
def replacementRune : Char := '\uFFFD'

def encodeChars (chars : List Char) : List UInt8 :=
  chars.flatMap String.utf8EncodeChar

def encode (text : String) : List UInt8 :=
  encodeChars text.toList

/-- What stands at the front of a byte string. -/
inductive Scan where
  /-- A whole scalar value and the number of bytes that encode it. -/
  | scalar (c : Char) (width : Nat)
  /-- The bytes end, and more of them could complete a scalar value. -/
  | cutShort
  /-- No scalar value can be completed; `width` bytes were acceptable or, if none was, one is
  taken. -/
  | malformed (width : Nat)
  deriving Repr, DecidableEq

/-- What a lead byte announces: how many bytes follow it, the bits it carries itself, and the bounds
of the byte right after it. The bounds shut out overlong forms, surrogates and values that are too
large; all later bytes lie between 80 and BF. -/
structure Lead where
  following : Nat
  bits : Nat
  low : UInt8
  high : UInt8
  deriving Repr, DecidableEq

/-- Reads a lead byte of a sequence of two bytes or more. -/
def Lead.ofByte? (b : UInt8) : Option Lead :=
  if b < 0xC2 then none
  else if b < 0xE0 then some ⟨1, b.toNat - 0xC0, 0x80, 0xBF⟩
  else if b = 0xE0 then some ⟨2, 0, 0xA0, 0xBF⟩
  else if b = 0xED then some ⟨2, 0xD, 0x80, 0x9F⟩
  else if b < 0xF0 then some ⟨2, b.toNat - 0xE0, 0x80, 0xBF⟩
  else if b = 0xF0 then some ⟨3, 0, 0x90, 0xBF⟩
  else if b < 0xF4 then some ⟨3, b.toNat - 0xF0, 0x80, 0xBF⟩
  else if b = 0xF4 then some ⟨3, 4, 0x80, 0x8F⟩
  else none

/-- Reads `following` more bytes of a sequence that has `seen` bytes and the value `bits` so far;
the first of them lies between `low` and `high`, the others between 80 and BF. -/
def scanTail (bits seen : Nat) (low high : UInt8) : (following : Nat) → List UInt8 → Scan
  | 0, _ => .scalar (Char.ofNat bits) seen
  | _ + 1, [] => .cutShort
  | following + 1, b :: rest =>
    if low ≤ b ∧ b ≤ high then
      scanTail (bits * 64 + (b.toNat - 0x80)) (seen + 1) 0x80 0xBF following rest
    else .malformed seen

/-- Scans the front of a byte string. -/
def scan : List UInt8 → Scan
  | [] => .cutShort
  | b :: rest =>
    if b < 0x80 then .scalar (Char.ofNat b.toNat) 1
    else
      match Lead.ofByte? b with
      | none => .malformed 1
      | some lead => scanTail lead.bits 1 lead.low lead.high lead.following rest

/-- Why strict decoding stops. -/
inductive StopReason where
  /-- The bytes end inside a sequence that more of them could complete. -/
  | unexpectedEnd
  /-- A byte that starts no sequence, or that cannot follow the bytes before it. -/
  | invalidByte
  deriving Repr, DecidableEq

/-- Where strict decoding stops, as the offset of the first byte that is not decoded, and why. -/
structure DecodeError where
  start : Nat
  reason : StopReason
  deriving Repr, DecidableEq

/-- Decodes all bytes but the first `skip`, which an earlier scan has taken. The first byte stands
at `offset`; `chars` holds the characters so far, last first. -/
def decodeFrom : (offset skip : Nat) → List UInt8 → (chars : List Char) →
    Except DecodeError (List Char)
  | _, _, [], chars => .ok chars.reverse
  | offset, skip + 1, _ :: rest, chars => decodeFrom (offset + 1) skip rest chars
  | offset, 0, b :: rest, chars =>
    match scan (b :: rest) with
    | .scalar c width => decodeFrom (offset + 1) (width - 1) rest (c :: chars)
    | .cutShort => .error ⟨offset, .unexpectedEnd⟩
    | .malformed _ => .error ⟨offset, .invalidByte⟩

/-- The characters that the bytes encode, or the error at the first byte that encodes nothing. -/
def decodeStrict (bytes : List UInt8) : Except DecodeError (List Char) :=
  decodeFrom 0 0 bytes []

/-- The characters that the bytes encode, if the bytes are well formed throughout. -/
def decode? (bytes : List UInt8) : Option (List Char) :=
  (decodeStrict bytes).toOption

/-- The first character with the number of bytes that encode it. -/
def firstRune (chars : List Char) : Option (Char × Nat) :=
  chars.head?.map fun c => (c, (String.utf8EncodeChar c).length)

/-- The first rune of a window with its width in bytes: the replacement rune and one byte where the
window cannot begin a rune, and nothing where the window is empty or ends inside its first rune. -/
def decodeRune (window : List UInt8) : Option (Char × Nat) :=
  match decodeStrict window with
  | .ok chars => firstRune chars
  | .error error =>
    if error.start = 0 ∧ error.reason = .unexpectedEnd then none
    else if 0 < error.start then
      -- What stands in front of the error is decoded again, which succeeds.
      (decodeStrict (window.take error.start)).toOption.bind firstRune
    else some (replacementRune, 1)

/-- Like `decodeFrom`, but an ill-formed part becomes one replacement rune: the longest part that
could have begun a rune, or a single byte if there is none. -/
def decodeReplacingFrom : (skip : Nat) → List UInt8 → (chars : List Char) → List Char
  | _, [], chars => chars.reverse
  | skip + 1, _ :: rest, chars => decodeReplacingFrom skip rest chars
  | 0, b :: rest, chars =>
    match scan (b :: rest) with
    | .scalar c width => decodeReplacingFrom (width - 1) rest (c :: chars)
    | .cutShort => (replacementRune :: chars).reverse
    | .malformed width => decodeReplacingFrom (width - 1) rest (replacementRune :: chars)

/-- The characters that the bytes encode, with replacement runes for what is ill formed. -/
def decodeReplacing (bytes : List UInt8) : List Char :=
  decodeReplacingFrom 0 bytes []

end Scannerless.Text.Utf8
