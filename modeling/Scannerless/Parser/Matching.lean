import Scannerless.Cursor
import Scannerless.Text.CaseFolding

/-!
# Matching at a cursor

What the matchers at the leaves of a parser do. Each either advances behind what it matched, or
fails where it stands.
-/
namespace Scannerless.Cursor

/-- The failure of a matcher: the complaint it was given, moved to the cursor, or else its own. -/
def refuse (cursor : Cursor) (complaint : Option Complaint) (usual : Diagnostic) : Cursor :=
  match complaint with
  | some complaint => cursor.withError (complaint.moved cursor.offset)
  | none => cursor.withError usual

/-- Matches one accepted rune. -/
def matchRune (accepts : Char → Outcome Bool) (complaint : Option Complaint) (what : String)
    (cursor : Cursor) : Outcome Cursor :=
  match cursor.readRune with
  | none => return cursor.refuse complaint (.runeMismatch cursor.offset what)
  | some (c, width) => do
    if ← accepts c then
      return cursor.withResult (.text (String.singleton c)) (cursor.offset + width)
    else return cursor.refuse complaint (.runeMismatch cursor.offset what)

/-- One accepted rune is matched, or the matcher refuses: the rune that is there is not accepted, or
no rune is left. -/
theorem matchRune_eq_value_iff {accepts : Char → Outcome Bool} {complaint : Option Complaint}
    {what : String} {cursor r : Cursor} :
    cursor.matchRune accepts complaint what = .value r ↔
      (∃ c width, cursor.readRune = some (c, width) ∧ accepts c = .value true ∧
        r = cursor.withResult (.text (String.singleton c)) (cursor.offset + width)) ∨
      ((∀ c width, cursor.readRune = some (c, width) → accepts c = .value false) ∧
        r = cursor.refuse complaint (.runeMismatch cursor.offset what)) := by
  rw [matchRune]
  cases cursor.readRune with
  | none => simp [eq_comm]
  | some found =>
    obtain ⟨c, width⟩ := found
    rw [Outcome.bind_eq_value_iff]
    constructor
    · rintro ⟨accepted, haccepts, h⟩
      cases accepted with
      | true => exact .inl ⟨c, width, rfl, haccepts, (Outcome.value.inj h).symm⟩
      | false =>
        refine .inr ⟨fun c' width' hread => ?_, (Outcome.value.inj h).symm⟩
        cases hread
        exact haccepts
    · rintro (⟨c', width', hread, haccepts, rfl⟩ | ⟨hrefused, rfl⟩)
      · cases hread
        exact ⟨true, haccepts, rfl⟩
      · exact ⟨false, hrefused c width rfl, rfl⟩

/-- Matches the longest run of accepted runes, which must not be empty. -/
def matchRunes (accepts : Char → Outcome Bool) (complaint : Option Complaint) (what : String)
    (cursor : Cursor) : Outcome Cursor := do
  match ← cursor.source.runesWhile accepts cursor.offset with
  | ([], _) => return cursor.refuse complaint (.runesMismatch cursor.offset what)
  | (runes, offset) => return cursor.withResult (.text (String.ofList runes)) offset

/-- The runes that are accepted are matched, or there are none and the matcher refuses. -/
theorem matchRunes_eq_value_iff {accepts : Char → Outcome Bool} {complaint : Option Complaint}
    {what : String} {cursor r : Cursor} :
    cursor.matchRunes accepts complaint what = .value r ↔
      ∃ runes offset, cursor.source.runesWhile accepts cursor.offset = .value (runes, offset) ∧
        r = if runes = [] then cursor.refuse complaint (.runesMismatch cursor.offset what)
          else cursor.withResult (.text (String.ofList runes)) offset := by
  rw [matchRunes, Outcome.bind_eq_value_iff]
  constructor
  · rintro ⟨⟨runes, offset⟩, hrunes, h⟩
    refine ⟨runes, offset, hrunes, ?_⟩
    cases runes <;> simpa [eq_comm] using h
  · rintro ⟨runes, offset, hrunes, rfl⟩
    refine ⟨(runes, offset), hrunes, ?_⟩
    cases runes <;> rfl

/-- Matches a number of runes. -/
def matchRuneCount (count : Nat) (cursor : Cursor) : Cursor :=
  match cursor.readRunes count with
  | none => cursor.withError (.runeCountMismatch count cursor.offset)
  | some (runes, width) => cursor.withResult (.text runes) (cursor.offset + width)

/-- The width that is read is the way to where the reading ends. -/
theorem matchRuneCount_eq (count : Nat) (cursor : Cursor) :
    cursor.matchRuneCount count =
      match cursor.source.readRunes count cursor.offset with
      | none => cursor.withError (.runeCountMismatch count cursor.offset)
      | some (runes, offset) => cursor.withResult (.text (String.ofList runes)) offset := by
  rw [matchRuneCount, readRunes, Int.toNat_natCast]
  cases cursor.source.readRunes count cursor.offset with
  | none => rfl
  | some found =>
    have hback : cursor.offset + (found.2 - cursor.offset) = found.2 := by omega
    show cursor.withResult _ (cursor.offset + (found.2 - cursor.offset)) = _
    rw [hback]

/-- Matches the bytes of a text. -/
def matchLiteral (text : String) (cursor : Cursor) : Cursor :=
  let bytes := Text.Utf8.encode text
  if cursor.readBytes bytes.length = bytes then
    cursor.withResult (.text text) (cursor.offset + bytes.length)
  else cursor.withError (.literalMismatch text cursor.offset)

/-- Holds of a window of the given size that encodes the text in another case or the same. -/
def foldsTo (text : String) (size : Nat) (bytes : List UInt8) : Bool :=
  bytes.length == size &&
    (Text.Utf8.decode? bytes).map Text.caseFold == some (Text.caseFold text.toList)

/-- Matches a text in any case that takes as many bytes as the text itself. The result is the text
as the grammar spells it. -/
def matchFoldedLiteral (text : String) (cursor : Cursor) : Cursor :=
  let size := (Text.Utf8.encode text).length
  if foldsTo text size (cursor.readBytes size) then
    cursor.withResult (.text text) (cursor.offset + size)
  else cursor.withError (.literalMismatch text cursor.offset)

/-- Stays at offset zero. -/
def matchStartOfInput (cursor : Cursor) : Cursor :=
  if cursor.offset = 0 then cursor
  else cursor.withError (.expectedStartOfInput cursor.offset)

/-- Stays where the byte after the next one does not exist. The next byte is not looked at, so one
byte may be left over. -/
def matchEndOfInput (cursor : Cursor) : Cursor :=
  if (cursor.source.read (cursor.offset + 1) 1).isEmpty then cursor
  else cursor.withError (.expectedEndOfInput cursor.offset)

/-- Stays at offset zero and behind a newline. -/
def matchStartOfLine (cursor : Cursor) : Cursor :=
  if cursor.offset = 0 then cursor
  else if cursor.source.read (cursor.offset - 1) 1 = [newline] then cursor
  else cursor.withError (.expectedStartOfLine cursor.offset)

end Scannerless.Cursor
