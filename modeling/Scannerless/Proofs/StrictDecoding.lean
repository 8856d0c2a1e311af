import Scannerless.Proofs.Codec

/-!
# Strict decoding and the first rune

Strict decoding gives the characters whose encodings the bytes are, or stops behind as many of them
as there are: where the rest is cut short the end was unexpected, and where it begins with nothing
that more bytes could complete a byte is invalid. The first rune of a window is read off that, and
comes to what one scan of the front of the window says.
-/
namespace Scannerless.Text.Utf8

variable {bytes rest : List UInt8} {cs found : List Char} {error : DecodeError}

theorem decodeFrom_append (offset : Nat) (front rest : List UInt8) (found : List Char) :
    decodeFrom offset front.length (front ++ rest) found =
      decodeFrom (offset + front.length) 0 rest found := by
  induction front generalizing offset with
  | nil => rfl
  | cons b front ih =>
    rw [List.length_cons, List.cons_append, decodeFrom, ih, Nat.add_right_comm, Nat.add_assoc]

/-- A character at the front is decoded first. -/
theorem decodeFrom_utf8EncodeChar_append (offset : Nat) (c : Char) (rest : List UInt8)
    (found : List Char) :
    decodeFrom offset 0 (String.utf8EncodeChar c ++ rest) found =
      decodeFrom (offset + (String.utf8EncodeChar c).length) 0 rest (c :: found) := by
  have hscan := scan_utf8EncodeChar_append c rest
  have hlength := String.length_utf8EncodeChar c
  have hpos := c.utf8Size_pos
  cases hbytes : String.utf8EncodeChar c with
  | nil =>
    rw [hbytes, List.length_nil] at hlength
    omega
  | cons b front =>
    rw [hbytes, List.cons_append] at hscan
    rw [List.cons_append, decodeFrom, hscan]
    simp only [List.length_cons, Nat.add_sub_cancel]
    rw [decodeFrom_append, Nat.add_right_comm, Nat.add_assoc]

theorem decodeFrom_encodeChars_append (offset : Nat) (cs : List Char) (rest : List UInt8)
    (found : List Char) :
    decodeFrom offset 0 (encodeChars cs ++ rest) found =
      decodeFrom (offset + (encodeChars cs).length) 0 rest (cs.reverse ++ found) := by
  induction cs generalizing offset found with
  | nil => rfl
  | cons c cs ih =>
    rw [encodeChars_cons, List.append_assoc, decodeFrom_utf8EncodeChar_append, ih,
      List.length_append, Nat.add_assoc, List.reverse_cons, List.append_assoc,
      List.singleton_append]

theorem decodeStrict_encodeChars (cs : List Char) : decodeStrict (encodeChars cs) = .ok cs := by
  have h := decodeFrom_encodeChars_append 0 cs [] []
  rw [List.append_nil, List.append_nil] at h
  rw [decodeStrict, h, decodeFrom, List.reverse_reverse]

/-- Bytes are the encodings of characters and a rest that does not begin with one. -/
theorem exists_undecodable_rest (bytes : List UInt8) :
    ∃ cs rest, bytes = encodeChars cs ++ rest ∧ ∀ c width, scan rest ≠ .scalar c width := by
  obtain ⟨length, hlength⟩ : ∃ length, bytes.length ≤ length := ⟨_, Nat.le_refl _⟩
  induction length generalizing bytes with
  | zero =>
    obtain rfl : bytes = [] := List.length_eq_zero_iff.mp (Nat.le_zero.mp hlength)
    exact ⟨[], [], rfl, nofun⟩
  | succ length ih =>
    by_cases hscan : ∃ c width, scan bytes = .scalar c width
    · obtain ⟨c, width, hscan⟩ := hscan
      obtain ⟨-, behind, rfl⟩ := scan_eq_scalar_iff.mp hscan
      have hpos := c.utf8Size_pos
      rw [List.length_append, String.length_utf8EncodeChar] at hlength
      obtain ⟨cs, rest, rfl, hrest⟩ := ih behind (by omega)
      exact ⟨c :: cs, rest, by rw [encodeChars_cons, List.append_assoc], hrest⟩
    · exact ⟨[], bytes, rfl, fun c width hscalar => hscan ⟨c, width, hscalar⟩⟩

/-- What strict decoding says behind characters, where the rest does not begin with one. -/
theorem decodeStrict_append (cs : List Char) (hrest : ∀ c width, scan rest ≠ .scalar c width) :
    decodeStrict (encodeChars cs ++ rest) =
      if rest = [] then .ok cs
      else .error ⟨(encodeChars cs).length,
        if scan rest = .cutShort then .unexpectedEnd else .invalidByte⟩ := by
  rw [decodeStrict, decodeFrom_encodeChars_append, Nat.zero_add, List.append_nil]
  cases rest with
  | nil => rw [decodeFrom, List.reverse_reverse, if_pos rfl]
  | cons b rest =>
    rw [decodeFrom, if_neg (List.cons_ne_nil b rest)]
    cases hscan : scan (b :: rest) with
    | scalar c width => exact absurd hscan (hrest c width)
    | cutShort => rfl
    | malformed width => rfl

/-- The strict decoder is the inverse of the encoder. -/
theorem decodeStrict_eq_ok_iff : decodeStrict bytes = .ok cs ↔ bytes = encodeChars cs := by
  constructor
  · intro h
    obtain ⟨ds, rest, rfl, hrest⟩ := exists_undecodable_rest bytes
    rw [decodeStrict_append ds hrest] at h
    split at h
    · rename_i hnil
      obtain rfl := Except.ok.inj h
      rw [hnil, List.append_nil]
    · cases h
  · rintro rfl
    exact decodeStrict_encodeChars cs

theorem decode?_eq_some_iff : decode? bytes = some cs ↔ bytes = encodeChars cs := by
  rw [decode?, ← decodeStrict_eq_ok_iff]
  cases decodeStrict bytes <;> simp [Except.toOption]

/-- Where decoding stops it has passed characters, and it says whether the rest is cut short. -/
theorem exists_rest_of_error (h : decodeStrict bytes = .error error) :
    ∃ cs rest, bytes = encodeChars cs ++ rest ∧ rest ≠ [] ∧
      (∀ c width, scan rest ≠ .scalar c width) ∧ error.start = (encodeChars cs).length ∧
      (error.reason = .unexpectedEnd ↔ scan rest = .cutShort) := by
  obtain ⟨cs, rest, rfl, hrest⟩ := exists_undecodable_rest bytes
  rw [decodeStrict_append cs hrest] at h
  split at h
  · cases h
  · rename_i hne
    obtain rfl := Except.error.inj h
    refine ⟨cs, rest, rfl, hne, hrest, rfl, ?_⟩
    by_cases hcut : scan rest = .cutShort <;> simp [hcut]

/-- In front of an error that is not the first byte there is a character, and decoding it again
succeeds. -/
theorem decodeStrict_take_start (h : decodeStrict bytes = .error error) (hstart : 0 < error.start) :
    ∃ c cs, decodeStrict (bytes.take error.start) = .ok (c :: cs) := by
  obtain ⟨cs, rest, rfl, -, -, hlength, -⟩ := exists_rest_of_error h
  rw [hlength] at hstart
  rw [hlength, List.take_left, decodeStrict_encodeChars]
  cases cs with
  | nil => exact absurd hstart (Nat.lt_irrefl 0)
  | cons c cs => exact ⟨c, cs, rfl⟩

/-- The first rune of a window is what one scan of its front says. -/
theorem decodeRune_eq (window : List UInt8) :
    decodeRune window =
      match scan window with
      | .scalar c width => some (c, width)
      | .cutShort => none
      | .malformed _ => some (replacementRune, 1) := by
  cases h : decodeStrict window with
  | ok chars =>
    rw [decodeStrict_eq_ok_iff] at h
    subst h
    cases chars with
    | nil => rfl
    | cons c cs =>
      rw [decodeRune, decodeStrict_encodeChars, encodeChars_cons, scan_utf8EncodeChar_append]
      rfl
  | error error =>
    obtain ⟨cs, rest, rfl, hne, hrest, hstart, hreason⟩ := exists_rest_of_error h
    simp only [decodeRune, h, hstart, hreason]
    cases cs with
    | nil =>
      rw [encodeChars_nil, List.length_nil, List.nil_append]
      cases hscan : scan rest with
      | scalar c width => exact absurd hscan (hrest c width)
      | cutShort => simp
      | malformed width => simp
    | cons c cs =>
      -- The bytes in front of the error begin with a character, and so does the window.
      have hpos : 0 < (encodeChars (c :: cs)).length := by
        have hsize := c.utf8Size_pos
        rw [encodeChars_cons, List.length_append, String.length_utf8EncodeChar]
        omega
      rw [if_neg (by omega), if_pos hpos, List.take_left, decodeStrict_encodeChars,
        encodeChars_cons, List.append_assoc, scan_utf8EncodeChar_append]
      rfl

theorem decodeRune_width {window : List UInt8} {c : Char} {width : Nat}
    (h : decodeRune window = some (c, width)) : 0 < width ∧ width ≤ window.length := by
  rw [decodeRune_eq] at h
  split at h
  next c' width' hscan =>
    obtain ⟨rfl, rfl⟩ := Prod.mk.injEq _ _ _ _ ▸ Option.some.inj h
    exact scan_scalar_width hscan
  next hscan => cases h
  next width' hscan =>
    obtain ⟨rfl, rfl⟩ := Prod.mk.injEq _ _ _ _ ▸ Option.some.inj h
    cases window with
    | nil => simp [scan] at hscan
    | cons b rest => simp

end Scannerless.Text.Utf8
