import Scannerless.Proofs.Files.Handle
import Scannerless.Proofs.Progress

/-!
# A handle answers like the bytes of its file

Every read seeks first, so where the handle stands before does not show in what it answers. From
this one fact about a read the same is found of every matcher, of every loop and of one level of a
run: through the handle they come to what they come to over the bytes, and they leave the contents
as they are.
-/
namespace Scannerless

/-- A source is known by its bytes, since these decide every read. -/
theorem Source.eq_of_bytes {s t : Source} (h : s.bytes = t.bytes) : s = t := by
  obtain ⟨bytes, read, hread⟩ := s
  obtain ⟨bytes', read', hread'⟩ := t
  obtain rfl : bytes = bytes' := h
  obtain rfl : read = read' := by
    funext offset length
    rw [hread, hread']
  rfl

theorem OpenFile.source_eq_of_contents {file : OpenFile} {source : Source}
    (h : file.contents = source.bytes) : file.source = source :=
  Source.eq_of_bytes h

/-- Reads in any order, from wherever the handle stands, are windows of the contents. -/
theorem OpenFile.fst_readEach (file : OpenFile) (requests : List (Int × Int)) :
    (file.readEach requests).1 =
      requests.map fun (offset, length) => (Source.ofBytes file.contents).read offset length := by
  induction requests generalizing file with
  | nil => rfl
  | cons request rest ih =>
    obtain ⟨offset, length⟩ := request
    simp only [readEach, List.map_cons, ih, contents_readAt, fst_readAt]
    rfl

namespace Handled

/-- `Follows source x y`: whichever file `x` reads through, as long as it has the bytes of the
source and wherever it stands, `x` ends as `y` does and leaves the bytes as they are. -/
def Follows {α : Type} (source : Source) (x : Handled α) (y : Outcome α) : Prop :=
  ∀ file : OpenFile, file.contents = source.bytes →
    ∃ after : OpenFile, after.contents = source.bytes ∧ x file = y >>= fun a => .value (a, after)

namespace Follows

variable {α β : Type} {source : Source} {x : Handled α} {y : Outcome α}

theorem pure (a : α) : Follows source (Pure.pure a) (.value a) :=
  fun file hfile => ⟨file, hfile, rfl⟩

theorem lift (y : Outcome α) : Follows source (Handled.lift y) y :=
  fun file hfile => ⟨file, hfile, rfl⟩

theorem bind {f : α → Handled β} {g : α → Outcome β} (hx : Follows source x y)
    (hf : ∀ a, y = .value a → Follows source (f a) (g a)) : Follows source (x >>= f) (y >>= g) := by
  intro file hfile
  obtain ⟨after, hafter, hrun⟩ := hx file hfile
  have hbind : (x >>= f) file = x file >>= fun (a, after) => f a after := rfl
  rw [hbind, hrun]
  cases y with
  | value a => exact hf a rfl after hafter
  | raised fault => exact ⟨after, hafter, rfl⟩
  | unfinished => exact ⟨after, hafter, rfl⟩

/-- Goes on behind a part of which the answer is known. -/
theorem andThen {a : α} {f : α → Handled β} {z : Outcome β} (hx : Follows source x (.value a))
    (hf : Follows source (f a) z) : Follows source (x >>= f) z := by
  have h : Follows source (x >>= f) (.value a >>= fun _ => z) := hx.bind fun b hb => by
    obtain rfl := Outcome.value.inj hb
    exact hf
  exact h

end Follows

variable {source : Source}

theorem readAt_follows (offset length : Int) :
    Follows source (readAt offset length) (.value (source.read offset length)) := by
  intro file hfile
  refine ⟨(file.readAt offset length).2, (file.contents_readAt offset length).trans hfile, ?_⟩
  have hbytes : source.read offset length = (file.readAt offset length).1 := by
    rw [file.fst_readAt, source.read_eq, hfile]
  rw [hbytes]
  rfl

theorem size_follows : Follows source size (.value source.size) := by
  intro file hfile
  refine ⟨file, hfile, ?_⟩
  rw [Source.size, ← hfile]
  rfl

theorem call_follows {α : Type} {drift : OpenFile → Cursor → Nat} {f : Cursor → Outcome α}
    {cursor : Cursor} (hcursor : cursor.source = source) :
    Follows source (call drift f cursor) (f cursor) := by
  intro file hfile
  refine ⟨file.seek (drift file cursor), hfile, ?_⟩
  have hseen : { cursor with source := file.source } = cursor := by
    rw [OpenFile.source_eq_of_contents hfile, ← hcursor]
  rw [call, hseen]
  rfl

/-! Runes. -/

theorem probe_follows (offset : Int) (widths : List Nat) :
    Follows source (probe offset widths) (.value (source.probe offset widths)) := by
  induction widths with
  | nil => exact .pure _
  | cons width wider ih =>
    rw [probe, Source.probe]
    refine (readAt_follows offset width).andThen ?_
    split
    · exact .pure _
    · cases Text.Utf8.decodeRune (source.read offset width) with
      | some decoded => exact .pure _
      | none => exact ih

theorem readRune_follows (offset : Int) :
    Follows source (readRune offset) (.value (source.readRune offset)) :=
  probe_follows offset _

theorem readRunesFrom_follows (count : Nat) (offset : Int) (runes : List Char) :
    Follows source (readRunesFrom count offset runes)
      (.value (source.readRunesFrom count offset runes)) := by
  induction count generalizing offset runes with
  | zero => exact .pure _
  | succ count ih =>
    rw [readRunesFrom, Source.readRunesFrom]
    refine (readRune_follows offset).andThen ?_
    cases source.readRune offset with
    | none => exact .pure _
    | some rune => exact ih _ _

theorem runesWhileFrom_follows (accepts : Char → Outcome Bool) (steps : Nat) (offset : Int)
    (runes : List Char) :
    Follows source (runesWhileFrom accepts steps offset runes)
      (source.runesWhileFrom accepts steps offset runes) := by
  induction steps generalizing offset runes with
  | zero => exact .pure _
  | succ steps ih =>
    rw [runesWhileFrom, Source.runesWhileFrom]
    refine (readRune_follows offset).andThen ?_
    cases source.readRune offset with
    | none => exact .pure _
    | some rune =>
      refine (Follows.lift (accepts rune.1)).bind fun accepted _ => ?_
      cases accepted with
      | true => exact ih _ _
      | false => exact .pure _

/-! Matchers. -/

variable {cursor : Cursor} (hcursor : cursor.source = source)
include hcursor

theorem matchRune_follows (accepts : Char → Outcome Bool) (complaint : Option Complaint)
    (what : String) :
    Follows source (matchRune accepts complaint what cursor)
      (cursor.matchRune accepts complaint what) := by
  rw [Cursor.matchRune, Cursor.readRune, hcursor]
  refine (readRune_follows cursor.offset).andThen ?_
  cases source.readRune cursor.offset with
  | none => exact .pure _
  | some rune =>
    refine (Follows.lift (accepts rune.1)).bind fun accepted _ => ?_
    cases accepted <;> exact .pure _

theorem matchRunes_follows (accepts : Char → Outcome Bool) (complaint : Option Complaint)
    (what : String) :
    Follows source (matchRunes accepts complaint what cursor)
      (cursor.matchRunes accepts complaint what) := by
  rw [Cursor.matchRunes, hcursor, Source.runesWhile]
  refine size_follows.andThen ((runesWhileFrom_follows accepts _ cursor.offset []).bind ?_)
  rintro ⟨_ | ⟨rune, runes⟩, stop⟩ _ <;> exact .pure _

theorem readRunes_follows (count : Nat) :
    Follows source (readRunes count cursor.offset) (.value (cursor.readRunes count)) := by
  rw [Cursor.readRunes, Int.toNat_natCast, hcursor, Source.readRunes]
  refine (readRunesFrom_follows count cursor.offset []).andThen ?_
  cases source.readRunesFrom count cursor.offset [] <;> exact .pure _

theorem matchRuneCount_follows (count : Nat) :
    Follows source (matchRuneCount count cursor) (.value (cursor.matchRuneCount count)) := by
  rw [Cursor.matchRuneCount]
  refine (readRunes_follows hcursor count).andThen ?_
  cases cursor.readRunes count <;> exact .pure _

theorem matchLiteral_follows (text : String) :
    Follows source (matchLiteral text cursor) (.value (cursor.matchLiteral text)) := by
  rw [Cursor.matchLiteral, Cursor.readBytes, hcursor]
  refine (readAt_follows cursor.offset _).andThen ?_
  split <;> exact .pure _

theorem matchFoldedLiteral_follows (text : String) :
    Follows source (matchFoldedLiteral text cursor) (.value (cursor.matchFoldedLiteral text)) := by
  rw [Cursor.matchFoldedLiteral, Cursor.readBytes, hcursor]
  refine (readAt_follows cursor.offset _).andThen ?_
  split <;> exact .pure _

theorem matchEndOfInput_follows :
    Follows source (matchEndOfInput cursor) (.value cursor.matchEndOfInput) := by
  rw [Cursor.matchEndOfInput, hcursor]
  refine (readAt_follows (cursor.offset + 1) 1).andThen ?_
  split <;> exact .pure _

theorem matchStartOfLine_follows :
    Follows source (matchStartOfLine cursor) (.value cursor.matchStartOfLine) := by
  rw [matchStartOfLine, Cursor.matchStartOfLine, hcursor]
  split
  · exact .pure _
  · refine (readAt_follows (cursor.offset - 1) 1).andThen ?_
    split <;> exact .pure _

end Handled

end Scannerless
