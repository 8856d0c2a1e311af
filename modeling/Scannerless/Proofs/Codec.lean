import Scannerless.Text.Utf8Width

/-!
# What is encoded is scanned, and what is scanned was encoded

The well-formed encodings, by the number of their bytes and with the bounds of each byte, stand
between the encoder and the scan. Each of the two agrees with them, so they agree with each other.
The scan of a front part says the same as the scan of the whole, or that more bytes are needed; and
more bytes are needed exactly where the bytes end inside a rune.
-/
namespace Scannerless.Text.Utf8

/-- The byte lies where the later bytes of an encoding lie. -/
def IsTail (b : UInt8) : Prop := 0x80 ≤ b.toNat ∧ b.toNat ≤ 0xBF

/-- `Encoding bytes v`: the bytes are the well-formed encoding of the code point `v`. -/
inductive Encoding : List UInt8 → Nat → Prop where
  | one {a : UInt8} (ha : a.toNat < 0x80) : Encoding [a] a.toNat
  | two {a b : UInt8} (hlow : 0xC2 ≤ a.toNat) (hhigh : a.toNat < 0xE0) (hb : IsTail b) :
      Encoding [a, b] ((a.toNat - 0xC0) * 64 + (b.toNat - 0x80))
  | three {a b c : UInt8} (hlow : 0xE0 ≤ a.toNat) (hhigh : a.toNat < 0xF0) (hb : IsTail b)
      (hc : IsTail c) (hoverlong : a.toNat = 0xE0 → 0xA0 ≤ b.toNat)
      (hsurrogate : a.toNat = 0xED → b.toNat < 0xA0) :
      Encoding [a, b, c] (((a.toNat - 0xE0) * 64 + (b.toNat - 0x80)) * 64 + (c.toNat - 0x80))
  | four {a b c d : UInt8} (hlow : 0xF0 ≤ a.toNat) (hhigh : a.toNat < 0xF5) (hb : IsTail b)
      (hc : IsTail c) (hd : IsTail d) (hoverlong : a.toNat = 0xF0 → 0x90 ≤ b.toNat)
      (hlarge : a.toNat = 0xF4 → b.toNat < 0x90) :
      Encoding [a, b, c, d]
        ((((a.toNat - 0xF0) * 64 + (b.toNat - 0x80)) * 64 + (c.toNat - 0x80)) * 64 +
          (d.toNat - 0x80))

theorem toNat_ofNat {v : Nat} (h : v.isValidChar) : (Char.ofNat v).val.toNat = v := by
  rw [Char.ofNat, dif_pos h]
  rfl

theorem uInt8_ofNat_eq {v : Nat} {a : UInt8} (h : v = a.toNat) : UInt8.ofNat v = a := by
  rw [h, UInt8.ofNat_toNat]

namespace Encoding

variable {bytes : List UInt8} {v : Nat}

theorem isValidChar (h : Encoding bytes v) : v.isValidChar := by
  unfold Nat.isValidChar
  cases h with
  | one ha => omega
  | two hlow hhigh hb =>
    obtain ⟨hb, hb'⟩ := hb
    omega
  | three hlow hhigh hb hc hoverlong hsurrogate =>
    obtain ⟨hb, hb'⟩ := hb
    obtain ⟨hc, hc'⟩ := hc
    omega
  | four hlow hhigh hb hc hd hoverlong hlarge =>
    obtain ⟨hb, hb'⟩ := hb
    obtain ⟨hc, hc'⟩ := hc
    obtain ⟨hd, hd'⟩ := hd
    omega

theorem utf8EncodeChar_ofNat (h : Encoding bytes v) :
    String.utf8EncodeChar (Char.ofNat v) = bytes := by
  unfold String.utf8EncodeChar
  simp only [toNat_ofNat h.isValidChar]
  cases h with
  | one ha =>
    rw [if_pos (by omega), uInt8_ofNat_eq rfl]
  | @two a b hlow hhigh hb =>
    obtain ⟨hb, hb'⟩ := hb
    rw [if_neg (by omega), if_pos (by omega)]
    rw [uInt8_ofNat_eq (a := a) (by omega), uInt8_ofNat_eq (a := b) (by omega)]
  | @three a b c hlow hhigh hb hc hoverlong hsurrogate =>
    obtain ⟨hb, hb'⟩ := hb
    obtain ⟨hc, hc'⟩ := hc
    rw [if_neg (by omega), if_neg (by omega), if_pos (by omega)]
    rw [uInt8_ofNat_eq (a := a) (by omega), uInt8_ofNat_eq (a := b) (by omega),
      uInt8_ofNat_eq (a := c) (by omega)]
  | @four a b c d hlow hhigh hb hc hd hoverlong hlarge =>
    obtain ⟨hb, hb'⟩ := hb
    obtain ⟨hc, hc'⟩ := hc
    obtain ⟨hd, hd'⟩ := hd
    rw [if_neg (by omega), if_neg (by omega), if_neg (by omega)]
    rw [uInt8_ofNat_eq (a := a) (by omega), uInt8_ofNat_eq (a := b) (by omega),
      uInt8_ofNat_eq (a := c) (by omega), uInt8_ofNat_eq (a := d) (by omega)]

theorem of_char (c : Char) : Encoding (String.utf8EncodeChar c) c.toNat := by
  have hvalid : c.toNat.isValidChar := c.valid
  have hval : c.val.toNat = c.toNat := rfl
  unfold Nat.isValidChar at hvalid
  unfold String.utf8EncodeChar
  simp only [hval]
  generalize c.toNat = v at hvalid
  have htail : ∀ n, IsTail (UInt8.ofNat (n % 64 + 128)) := by
    intro n
    unfold IsTail
    rw [UInt8.toNat_ofNat']
    omega
  have hbyte : ∀ n, n < 256 → (UInt8.ofNat n).toNat = n := fun n hn => by
    rw [UInt8.toNat_ofNat']; omega
  split
  · have h := Encoding.one (a := UInt8.ofNat v) (by rw [hbyte v (by omega)]; omega)
    rwa [hbyte v (by omega)] at h
  · split
    · have h₁ := hbyte (v / 64 % 32 + 192) (by omega)
      have h₂ := hbyte (v % 64 + 128) (by omega)
      have h := Encoding.two (a := UInt8.ofNat (v / 64 % 32 + 192)) (by omega) (by omega) (htail v)
      rw [h₁, h₂] at h
      rwa [show (v / 64 % 32 + 192 - 192) * 64 + (v % 64 + 128 - 128) = v by omega] at h
    · split
      · have h₁ := hbyte (v / 4096 % 16 + 224) (by omega)
        have h₂ := hbyte (v / 64 % 64 + 128) (by omega)
        have h₃ := hbyte (v % 64 + 128) (by omega)
        have h := Encoding.three (a := UInt8.ofNat (v / 4096 % 16 + 224)) (by omega) (by omega)
          (htail (v / 64)) (htail v) (by omega) (by omega)
        rw [h₁, h₂, h₃] at h
        rwa [show ((v / 4096 % 16 + 224 - 224) * 64 + (v / 64 % 64 + 128 - 128)) * 64 +
          (v % 64 + 128 - 128) = v by omega] at h
      · have h₁ := hbyte (v / 262144 % 8 + 240) (by omega)
        have h₂ := hbyte (v / 4096 % 64 + 128) (by omega)
        have h₃ := hbyte (v / 64 % 64 + 128) (by omega)
        have h₄ := hbyte (v % 64 + 128) (by omega)
        have h := Encoding.four (a := UInt8.ofNat (v / 262144 % 8 + 240)) (by omega) (by omega)
          (htail (v / 4096)) (htail (v / 64)) (htail v) (by omega) (by omega)
        rw [h₁, h₂, h₃, h₄] at h
        rwa [show (((v / 262144 % 8 + 240 - 240) * 64 + (v / 4096 % 64 + 128 - 128)) * 64 +
          (v / 64 % 64 + 128 - 128)) * 64 + (v % 64 + 128 - 128) = v by omega] at h

end Encoding

theorem Lead.ofByte?_two {a : UInt8} (hlow : 0xC2 ≤ a.toNat) (hhigh : a.toNat < 0xE0) :
    Lead.ofByte? a = some ⟨1, a.toNat - 0xC0, 0x80, 0xBF⟩ := by
  simp only [Lead.ofByte?, UInt8.lt_iff_toNat_lt, UInt8.reduceToNat]
  rw [if_neg (by omega), if_pos hhigh]

theorem Lead.ofByte?_three {a : UInt8} (hlow : 0xE0 ≤ a.toNat) (hhigh : a.toNat < 0xF0) :
    ∃ low high, Lead.ofByte? a = some ⟨2, a.toNat - 0xE0, low, high⟩ ∧
      ∀ b : UInt8, (low ≤ b ∧ b ≤ high) ↔
        IsTail b ∧ (a.toNat = 0xE0 → 0xA0 ≤ b.toNat) ∧ (a.toNat = 0xED → b.toNat < 0xA0) := by
  simp only [Lead.ofByte?, UInt8.lt_iff_toNat_lt, ← UInt8.toNat_inj, UInt8.reduceToNat,
    UInt8.le_iff_toNat_le, IsTail]
  rw [if_neg (by omega), if_neg (by omega)]
  by_cases hfirst : a.toNat = 0xE0
  · refine ⟨0xA0, 0xBF, by simp [hfirst], fun b => ?_⟩
    simp only [UInt8.reduceToNat]
    omega
  · by_cases hlast : a.toNat = 0xED
    · refine ⟨0x80, 0x9F, by simp [hlast], fun b => ?_⟩
      simp only [UInt8.reduceToNat]
      omega
    · refine ⟨0x80, 0xBF, by simp [hfirst, hlast, hhigh], fun b => ?_⟩
      simp only [UInt8.reduceToNat]
      omega

theorem Lead.ofByte?_four {a : UInt8} (hlow : 0xF0 ≤ a.toNat) (hhigh : a.toNat < 0xF5) :
    ∃ low high, Lead.ofByte? a = some ⟨3, a.toNat - 0xF0, low, high⟩ ∧
      ∀ b : UInt8, (low ≤ b ∧ b ≤ high) ↔
        IsTail b ∧ (a.toNat = 0xF0 → 0x90 ≤ b.toNat) ∧ (a.toNat = 0xF4 → b.toNat < 0x90) := by
  simp only [Lead.ofByte?, UInt8.lt_iff_toNat_lt, ← UInt8.toNat_inj, UInt8.reduceToNat,
    UInt8.le_iff_toNat_le, IsTail]
  rw [if_neg (by omega), if_neg (by omega), if_neg (by omega), if_neg (by omega), if_neg (by omega)]
  by_cases hfirst : a.toNat = 0xF0
  · refine ⟨0x90, 0xBF, by simp [hfirst], fun b => ?_⟩
    simp only [UInt8.reduceToNat]
    omega
  · by_cases hlast : a.toNat = 0xF4
    · refine ⟨0x80, 0x8F, by simp [hlast], fun b => ?_⟩
      simp only [UInt8.reduceToNat]
      omega
    · refine ⟨0x80, 0xBF, ?_, fun b => ?_⟩
      · rw [if_neg hfirst, if_pos (by omega)]
      · simp only [UInt8.reduceToNat]
        omega

theorem Lead.ofByte?_none {a : UInt8} (h : a.toNat < 0xC2 ∨ 0xF5 ≤ a.toNat) :
    Lead.ofByte? a = none := by
  simp only [Lead.ofByte?, UInt8.lt_iff_toNat_lt, ← UInt8.toNat_inj, UInt8.reduceToNat]
  rcases h with h | h
  · rw [if_pos h]
  · repeat rw [if_neg (by omega)]

theorem isAscii_iff {a : UInt8} : a < 0x80 ↔ a.toNat < 0x80 := by
  rw [UInt8.lt_iff_toNat_lt]
  rfl

theorem isTail_iff {b : UInt8} : 0x80 ≤ b ∧ b ≤ 0xBF ↔ IsTail b := by
  rw [UInt8.le_iff_toNat_le, UInt8.le_iff_toNat_le]
  rfl

theorem scanTail_cons {bits seen : Nat} {low high b : UInt8} (h : low ≤ b ∧ b ≤ high)
    (following : Nat) (rest : List UInt8) :
    scanTail bits seen low high (following + 1) (b :: rest) =
      scanTail (bits * 64 + (b.toNat - 0x80)) (seen + 1) 0x80 0xBF following rest :=
  if_pos h

theorem scan_lead {a : UInt8} {lead : Lead} (h : 0x80 ≤ a.toNat)
    (hlead : Lead.ofByte? a = some lead) (rest : List UInt8) :
    scan (a :: rest) = scanTail lead.bits 1 lead.low lead.high lead.following rest := by
  have hlarge : ¬ a < 0x80 := by
    rw [isAscii_iff]
    omega
  simp only [scan, hlarge, if_false, hlead]

/-- What is encoded is scanned, whatever follows it. -/
theorem Encoding.scan_append {bytes : List UInt8} {v : Nat} (h : Encoding bytes v)
    (rest : List UInt8) :
    scan (bytes ++ rest) = .scalar (Char.ofNat v) bytes.length := by
  cases h with
  | @one a ha =>
    simp [scan, isAscii_iff.mpr ha]
  | @two a b hlow hhigh hb =>
    have hlead := Lead.ofByte?_two hlow hhigh
    rw [List.cons_append, scan_lead (by omega) hlead, List.cons_append,
      scanTail_cons (isTail_iff.mpr hb)]
    rfl
  | @three a b c hlow hhigh hb hc hoverlong hsurrogate =>
    obtain ⟨low, high, hlead, hsecond⟩ := Lead.ofByte?_three hlow hhigh
    rw [List.cons_append, scan_lead (by omega) hlead, List.cons_append,
      scanTail_cons ((hsecond b).mpr ⟨hb, hoverlong, hsurrogate⟩), List.cons_append,
      scanTail_cons (isTail_iff.mpr hc)]
    rfl
  | @four a b c d hlow hhigh hb hc hd hoverlong hlarge =>
    obtain ⟨low, high, hlead, hsecond⟩ := Lead.ofByte?_four hlow hhigh
    rw [List.cons_append, scan_lead (by omega) hlead, List.cons_append,
      scanTail_cons ((hsecond b).mpr ⟨hb, hoverlong, hlarge⟩), List.cons_append,
      scanTail_cons (isTail_iff.mpr hc), List.cons_append, scanTail_cons (isTail_iff.mpr hd)]
    rfl

theorem scanTail_eq_scalar {bits seen following : Nat} {low high : UInt8} {bytes : List UInt8}
    {c : Char} {width : Nat}
    (h : scanTail bits seen low high (following + 1) bytes = .scalar c width) :
    ∃ b rest, bytes = b :: rest ∧ (low ≤ b ∧ b ≤ high) ∧
      scanTail (bits * 64 + (b.toNat - 0x80)) (seen + 1) 0x80 0xBF following rest =
        .scalar c width := by
  cases bytes with
  | nil => cases h
  | cons b rest =>
    rw [scanTail] at h
    split at h
    · rename_i hb
      exact ⟨b, rest, rfl, hb, h⟩
    · cases h

/-- What is scanned as a scalar value was encoded. -/
theorem Encoding.of_scan {bytes : List UInt8} {c : Char} {width : Nat}
    (h : scan bytes = .scalar c width) :
    ∃ front rest v, bytes = front ++ rest ∧ Encoding front v ∧ c = Char.ofNat v ∧
    width = front.length := by
  cases bytes with
  | nil => cases h
  | cons a rest =>
    by_cases hsmall : a.toNat < 0x80
    · simp only [scan, isAscii_iff.mpr hsmall, if_true] at h
      cases h
      exact ⟨[a], rest, a.toNat, rfl, .one hsmall, rfl, rfl⟩
    · by_cases hnone : a.toNat < 0xC2 ∨ 0xF5 ≤ a.toNat
      · have ha : ¬ a < 0x80 := fun ha => hsmall (isAscii_iff.mp ha)
        simp only [scan, ha, if_false, Lead.ofByte?_none hnone] at h
        cases h
      · by_cases htwo : a.toNat < 0xE0
        · have hlead := Lead.ofByte?_two (a := a) (by omega) htwo
          rw [scan_lead (by omega) hlead] at h
          obtain ⟨b, rest, rfl, hb, h⟩ := scanTail_eq_scalar h
          obtain ⟨hchar, hwidth⟩ := Scan.scalar.inj h
          exact ⟨[a, b], rest, _, rfl, .two (by omega) htwo (isTail_iff.mp hb), hchar.symm,
            hwidth.symm⟩
        · by_cases hthree : a.toNat < 0xF0
          · obtain ⟨low, high, hlead, hsecond⟩ := Lead.ofByte?_three (a := a) (by omega) hthree
            rw [scan_lead (by omega) hlead] at h
            obtain ⟨b, rest, rfl, hb, h⟩ := scanTail_eq_scalar h
            obtain ⟨c, rest, rfl, hc, h⟩ := scanTail_eq_scalar h
            obtain ⟨hchar, hwidth⟩ := Scan.scalar.inj h
            obtain ⟨hb, hoverlong, hsurrogate⟩ := (hsecond b).mp hb
            exact ⟨[a, b, c], rest, _, rfl, .three (by omega) hthree hb (isTail_iff.mp hc) hoverlong
              hsurrogate, hchar.symm, hwidth.symm⟩
          · obtain ⟨low, high, hlead, hsecond⟩ := Lead.ofByte?_four (a := a) (by omega) (by omega)
            rw [scan_lead (by omega) hlead] at h
            obtain ⟨b, rest, rfl, hb, h⟩ := scanTail_eq_scalar h
            obtain ⟨c, rest, rfl, hc, h⟩ := scanTail_eq_scalar h
            obtain ⟨d, rest, rfl, hd, h⟩ := scanTail_eq_scalar h
            obtain ⟨hchar, hwidth⟩ := Scan.scalar.inj h
            obtain ⟨hb, hoverlong, hlarge⟩ := (hsecond b).mp hb
            exact ⟨[a, b, c, d], rest, _, rfl, .four (by omega) (by omega) hb (isTail_iff.mp hc)
              (isTail_iff.mp hd) hoverlong hlarge, hchar.symm, hwidth.symm⟩

theorem scan_utf8EncodeChar_append (c : Char) (rest : List UInt8) :
    scan (String.utf8EncodeChar c ++ rest) = .scalar c (String.utf8EncodeChar c).length := by
  have h := (Encoding.of_char c).scan_append rest
  rwa [Char.ofNat_toNat] at h

theorem scan_eq_scalar_iff {bytes : List UInt8} {c : Char} {width : Nat} :
    scan bytes = .scalar c width ↔
      width = (String.utf8EncodeChar c).length ∧
      ∃ rest, bytes = String.utf8EncodeChar c ++ rest := by
  constructor
  · intro h
    obtain ⟨front, rest, v, rfl, hfront, rfl, rfl⟩ := Encoding.of_scan h
    rw [hfront.utf8EncodeChar_ofNat]
    exact ⟨rfl, rest, rfl⟩
  · rintro ⟨rfl, rest, rfl⟩
    exact scan_utf8EncodeChar_append c rest

theorem encodeChars_nil : encodeChars [] = [] := rfl

theorem encodeChars_cons (c : Char) (cs : List Char) :
    encodeChars (c :: cs) = String.utf8EncodeChar c ++ encodeChars cs :=
  List.flatMap_cons

theorem encodeChars_append (cs ds : List Char) :
    encodeChars (cs ++ ds) = encodeChars cs ++ encodeChars ds :=
  List.flatMap_append

theorem eq_nil_of_length_encodeChars {cs : List Char} (h : (encodeChars cs).length = 0) :
    cs = [] := by
  cases cs with
  | nil => rfl
  | cons c cs =>
    have hpos := c.utf8Size_pos
    rw [encodeChars_cons, List.length_append, String.length_utf8EncodeChar] at h
    omega

/-- No encoding is the beginning of another, so the first character can be told from the bytes. -/
theorem utf8EncodeChar_append_inj {c d : Char} {xs ys : List UInt8}
    (h : String.utf8EncodeChar c ++ xs = String.utf8EncodeChar d ++ ys) : c = d ∧ xs = ys := by
  have hscan := congrArg scan h
  rw [scan_utf8EncodeChar_append, scan_utf8EncodeChar_append] at hscan
  obtain rfl := (Scan.scalar.inj hscan).1
  exact ⟨rfl, List.append_cancel_left h⟩

theorem encodeChars_prefix_iff {cs ds : List Char} :
    encodeChars cs <+: encodeChars ds ↔ cs <+: ds := by
  constructor
  · intro h
    induction cs generalizing ds with
    | nil => exact List.nil_prefix
    | cons c cs ih =>
      obtain ⟨rest, hrest⟩ := h
      cases ds with
      | nil =>
        have hnil : c :: cs = [] := eq_nil_of_length_encodeChars (by
          have hlength := congrArg List.length hrest
          rw [List.length_append, encodeChars_nil, List.length_nil] at hlength
          omega)
        cases hnil
      | cons d ds =>
        rw [encodeChars_cons, encodeChars_cons, List.append_assoc] at hrest
        obtain ⟨rfl, htail⟩ := utf8EncodeChar_append_inj hrest
        exact List.cons_prefix_cons.mpr ⟨rfl, ih ⟨rest, htail⟩⟩
  · rintro ⟨rest, rfl⟩
    exact ⟨encodeChars rest, (encodeChars_append cs rest).symm⟩

/-! Scans of a front part. -/

theorem scanTail_take (bits seen : Nat) (low high : UInt8) (following : Nat) (bytes : List UInt8)
    (k : Nat) :
    scanTail bits seen low high following (bytes.take k) = .cutShort ∨
      scanTail bits seen low high following (bytes.take k) =
        scanTail bits seen low high following bytes := by
  induction following generalizing bits seen low high bytes k with
  | zero => exact .inr rfl
  | succ following ih =>
    cases bytes with
    | nil => exact .inr (by rw [List.take_nil])
    | cons b rest =>
      cases k with
      | zero => exact .inl rfl
      | succ k =>
        rw [List.take_succ_cons]
        simp only [scanTail]
        split
        · exact ih _ _ _ _ rest k
        · exact .inr rfl

theorem scan_take (bytes : List UInt8) (k : Nat) :
    scan (bytes.take k) = .cutShort ∨ scan (bytes.take k) = scan bytes := by
  cases bytes with
  | nil => exact .inr (by rw [List.take_nil])
  | cons b rest =>
    cases k with
    | zero => exact .inl rfl
    | succ k =>
      rw [List.take_succ_cons]
      simp only [scan]
      split
      · exact .inr rfl
      · split
        · exact .inr rfl
        · exact scanTail_take _ _ _ _ _ rest k

theorem length_lt_of_scanTail_cutShort {bits seen following : Nat} {low high : UInt8}
    {bytes : List UInt8} (h : scanTail bits seen low high following bytes = .cutShort) :
    bytes.length < following := by
  induction following generalizing bits seen low high bytes with
  | zero => cases h
  | succ following ih =>
    cases bytes with
    | nil => exact Nat.succ_pos following
    | cons b rest =>
      rw [scanTail] at h
      split at h
      · have hrest := ih h
        rw [List.length_cons]
        omega
      · cases h

/-- Four bytes are enough to tell what stands in front. -/
theorem length_lt_of_scan_cutShort {bytes : List UInt8} (h : scan bytes = .cutShort) :
    bytes.length < maxRuneBytes := by
  cases bytes with
  | nil => decide
  | cons a rest =>
    rw [scan] at h
    split at h
    · cases h
    · split at h
      · cases h
      · rename_i lead hlead
        have hrest := length_lt_of_scanTail_cutShort h
        have hfollowing : lead.following ≤ 3 := by
          unfold Lead.ofByte? at hlead
          repeat' split at hlead
          all_goals cases hlead <;> simp
        rw [List.length_cons, maxRuneBytes]
        omega

/-! Scans that are cut short. -/

/-- The bytes are a front part of the encoding of a rune, and not all of it. -/
def IsCutShort (bytes : List UInt8) : Prop :=
  ∃ c : Char, bytes <+: String.utf8EncodeChar c ∧ bytes ≠ String.utf8EncodeChar c

theorem scanTail_replicate (bits seen following : Nat) :
    ∃ c, scanTail bits seen 0x80 0xBF following (List.replicate following 0x80) =
      .scalar c (seen + following) := by
  induction following generalizing bits seen with
  | zero => exact ⟨_, rfl⟩
  | succ following ih =>
    obtain ⟨c, hc⟩ := ih (bits * 64) (seen + 1)
    refine ⟨c, ?_⟩
    rw [List.replicate_succ, scanTail_cons (by decide)]
    rw [Nat.add_right_comm] at hc
    exact hc

/-- A tail that is cut short can be completed: by the lowest byte that may come next, and then by
the lowest of the later bytes. -/
theorem exists_completion_of_scanTail {bits seen following : Nat} {low high : UInt8}
    {bytes : List UInt8} (hrange : low ≤ high)
    (h : scanTail bits seen low high following bytes = .cutShort) :
    ∃ rest c, rest ≠ [] ∧ (bytes ++ rest).length = following ∧
      scanTail bits seen low high following (bytes ++ rest) = .scalar c (seen + following) := by
  induction following generalizing bits seen low high bytes with
  | zero => cases h
  | succ following ih =>
    cases bytes with
    | nil =>
      obtain ⟨c, hc⟩ := scanTail_replicate (bits * 64 + (low.toNat - 0x80)) (seen + 1) following
      refine ⟨low :: List.replicate following 0x80, c, List.cons_ne_nil _ _, by simp, ?_⟩
      rw [List.nil_append, scanTail_cons ⟨UInt8.le_refl low, hrange⟩, hc]
      congr 1
      omega
    | cons b bytes =>
      rw [scanTail] at h
      split at h
      · rename_i hb
        obtain ⟨rest, c, hrest, hlength, hscan⟩ := ih (by decide) h
        refine ⟨rest, c, hrest, by simpa using hlength, ?_⟩
        rw [List.cons_append, scanTail_cons hb, hscan]
        congr 1
        omega
      · cases h

theorem Lead.low_le_high {a : UInt8} {lead : Lead} (h : Lead.ofByte? a = some lead) :
    lead.low ≤ lead.high := by
  unfold Lead.ofByte? at h
  repeat' split at h
  all_goals cases h <;> simp [UInt8.le_iff_toNat_le]

theorem isCutShort_of_scan {a : UInt8} {bytes : List UInt8} (h : scan (a :: bytes) = .cutShort) :
    IsCutShort (a :: bytes) := by
  obtain ⟨lead, hlarge, hlead⟩ : ∃ lead, 0x80 ≤ a.toNat ∧ Lead.ofByte? a = some lead := by
    rw [scan] at h
    split at h
    · cases h
    · rename_i hlarge
      split at h
      · cases h
      · rename_i lead hlead
        rw [isAscii_iff] at hlarge
        exact ⟨lead, by omega, hlead⟩
  rw [scan_lead hlarge hlead] at h
  obtain ⟨rest, c, hrest, hlength, htail⟩ :=
    exists_completion_of_scanTail (Lead.low_le_high hlead) h
  rw [← scan_lead hlarge hlead, ← List.cons_append] at htail
  obtain ⟨hwidth, behind, hbytes⟩ := scan_eq_scalar_iff.mp htail
  -- The completed scan takes all bytes, so nothing is left behind the rune.
  have hbehind : behind = [] := by
    have hsame := congrArg List.length hbytes
    simp only [List.cons_append, List.length_cons, List.length_append] at hsame hlength
    exact List.eq_nil_of_length_eq_zero (by omega)
  rw [hbehind, List.append_nil] at hbytes
  refine ⟨c, ⟨rest, hbytes⟩, fun hwhole => hrest ?_⟩
  rw [← hwhole] at hbytes
  exact List.append_right_eq_self.mp hbytes

theorem scan_of_isCutShort {bytes : List UInt8} (h : IsCutShort bytes) :
    scan bytes = .cutShort := by
  obtain ⟨c, ⟨rest, hbytes⟩, hne⟩ := h
  have hwhole := scan_utf8EncodeChar_append c []
  rw [List.append_nil, ← hbytes] at hwhole
  have hfront := scan_take (bytes ++ rest) bytes.length
  rw [List.take_left, hwhole] at hfront
  rcases hfront with hcut | hscalar
  · exact hcut
  · have hwidth := (scan_scalar_width hscalar).2
    rw [List.length_append] at hwidth
    have hrest : rest = [] := List.eq_nil_of_length_eq_zero (by omega)
    rw [hrest, List.append_nil] at hbytes
    exact absurd hbytes hne

/-- A scan is cut short exactly where there is no byte, or where the bytes end inside a rune. -/
theorem scan_eq_cutShort_iff {bytes : List UInt8} :
    scan bytes = .cutShort ↔ bytes = [] ∨ IsCutShort bytes := by
  constructor
  · intro h
    cases bytes with
    | nil => exact .inl rfl
    | cons a bytes => exact .inr (isCutShort_of_scan h)
  · rintro (rfl | h)
    · rfl
    · exact scan_of_isCutShort h

end Scannerless.Text.Utf8
