import Scannerless.Parser.Matching
import Scannerless.Proofs.StrictDecoding

/-!
# Comparing with an ASCII text without regard to case

A literal of ASCII characters is compared with a window of as many bytes as it has characters
itself. A character outside ASCII takes two bytes or more, and its folding is shorter than that,
save for three: the sharp s and the ligatures of `ffi` and `ffl` fold to as many ASCII characters as
they take bytes. So the window holds ASCII characters in either case, and where the literal has room
for them, these three.
-/
namespace Scannerless.Text

open Utf8

/-! Foldings. -/

/-- A character of seven bits. -/
def IsAscii (c : Char) : Prop := c.toNat < 128

instance (c : Char) : Decidable (IsAscii c) :=
  inferInstanceAs (Decidable (c.toNat < 128))

/-- The characters that fold to as many ASCII characters as they take bytes, with what they fold
to. -/
def compact : List (Char × List Char) :=
  [('ß', ['s', 's']), ('ﬃ', ['f', 'f', 'i']), ('ﬄ', ['f', 'f', 'l'])]

variable {c : Char} {cs : List Char}

theorem utf8Size_of_isAscii (h : IsAscii c) : c.utf8Size = 1 :=
  Char.utf8Size_eq_one_iff.mpr (UInt32.le_iff_toNat_le.mpr (Nat.le_of_lt_succ h))

theorem isAscii_of_utf8Size (h : c.utf8Size = 1) : IsAscii c :=
  Nat.lt_succ_of_le (UInt32.le_iff_toNat_le.mp (Char.utf8Size_eq_one_iff.mp h))

theorem isAscii_toLower_iff : IsAscii c.toLower ↔ IsAscii c := by
  constructor
  · intro h
    unfold Char.toLower at h
    split at h
    · rename_i hupper
      exact Nat.lt_of_le_of_lt (UInt32.le_iff_toNat_le.mp hupper.2) (by decide)
    · exact h
  · intro h
    have htable : ∀ n < 128, (Char.ofNat n).toLower.toNat < 128 := by decide
    have hc := htable c.toNat h
    rwa [Char.ofNat_toNat] at hc

/-- No table but the run of capital letters reaches into ASCII. -/
theorem foldCode_of_isAscii (h : IsAscii c) (hcapital : ¬ (0x41 ≤ c.toNat ∧ c.toNat ≤ 0x5A)) :
    foldCode c.toNat = [c.toNat] := by
  have hascii : c.toNat < 0x80 := h
  have hruns : ∀ run ∈ foldRuns, 0x80 ≤ run.first ∨ run.first = 0x41 ∧ run.last = 0x5A := by
    decide +kernel
  have hfull : ∀ entry ∈ fullFoldings, 0x80 ≤ entry.1 := by decide +kernel
  have hrun : foldRuns.find? (·.covers c.toNat) = none := by
    refine List.find?_eq_none.mpr fun run hrun => ?_
    have := hruns run hrun
    simp only [FoldRun.covers, Bool.and_eq_true, decide_eq_true_eq]
    omega
  have hlookup : fullFoldings.lookup c.toNat = none := by
    refine List.lookup_eq_none_iff.mpr fun entry hentry => ?_
    have := hfull entry hentry
    exact bne_iff_ne.mpr (by omega)
  rw [foldCode, hrun, hlookup]
  rfl

theorem foldChar_of_isAscii (h : IsAscii c) : foldChar c = [c.toLower] := by
  by_cases hcapital : 0x41 ≤ c.toNat ∧ c.toNat ≤ 0x5A
  · have htable : ∀ i < 26,
        foldChar (Char.ofNat (0x41 + i)) = [(Char.ofNat (0x41 + i)).toLower] := by
      decide +kernel
    have hc := htable (c.toNat - 0x41) (by omega)
    rwa [Nat.add_sub_cancel' hcapital.1, Char.ofNat_toNat] at hc
  · have hlower : c.toLower = c := by
      unfold Char.toLower
      rw [dif_neg]
      rintro ⟨hlow, hhigh⟩
      exact hcapital ⟨UInt32.le_iff_toNat_le.mp hlow, UInt32.le_iff_toNat_le.mp hhigh⟩
    rw [foldChar, foldCode_of_isAscii h hcapital, List.map_singleton, Char.ofNat_toNat, hlower]

/-- A full folding is shorter than its character, or not all of it is ASCII, or it is one of the
three. -/
theorem fullFoldings_short : ∀ entry ∈ fullFoldings,
    entry.2.length < (Char.ofNat entry.1).utf8Size ∨ (∃ m ∈ entry.2, 0x80 ≤ m ∧ m < 0xD800) ∨
      (Char.ofNat entry.1, entry.2.map Char.ofNat) ∈ compact := by
  decide +kernel

theorem foldChar_of_not_isAscii (h : ¬ IsAscii c) (hfold : ∀ d ∈ foldChar c, IsAscii d) :
    (foldChar c).length < c.utf8Size ∨ (c, foldChar c) ∈ compact := by
  have hwide : 1 < c.utf8Size := by
    have hpos := c.utf8Size_pos
    have hone : c.utf8Size ≠ 1 := fun hsize => h (isAscii_of_utf8Size hsize)
    omega
  -- All but the full foldings are single characters.
  have hsingle : ∀ m, foldCode c.toNat = [m] → (foldChar c).length < c.utf8Size := by
    intro m hm
    rw [foldChar, hm]
    exact hwide
  unfold foldCode at hsingle
  cases hrun : foldRuns.find? (·.covers c.toNat) with
  | some run =>
    rw [hrun] at hsingle
    exact .inl (hsingle _ rfl)
  | none =>
    rw [hrun] at hsingle
    cases hfull : fullFoldings.lookup c.toNat with
    | none =>
      rw [hfull] at hsingle
      exact .inl (hsingle _ rfl)
    | some codes =>
      have hcodes : foldChar c = codes.map Char.ofNat := by
        simp only [foldChar, foldCode, hrun, hfull, Option.getD_some]
      obtain ⟨before, after, hsplit, _⟩ := List.lookup_eq_some_iff.mp hfull
      have hmem : (c.toNat, codes) ∈ fullFoldings := by rw [hsplit]; simp
      have hentry := fullFoldings_short _ hmem
      rw [Char.ofNat_toNat] at hentry
      rw [hcodes, List.length_map]
      rcases hentry with hshort | ⟨m, hm, hlow, hhigh⟩ | hcompact
      · exact .inl hshort
      · have hascii := hfold (Char.ofNat m) (by rw [hcodes]; exact List.mem_map_of_mem hm)
        have hvalue : (Char.ofNat m).toNat = m := toNat_ofNat (.inl hhigh)
        rw [IsAscii, hvalue] at hascii
        omega
      · exact .inr hcompact

theorem foldChar_of_compact (h : (c, foldChar c) ∈ compact) : (foldChar c).length = c.utf8Size := by
  have htable : ∀ entry ∈ compact, entry.2.length = entry.1.utf8Size := by decide
  exact htable _ h

theorem caseFold_cons (c : Char) (cs : List Char) :
    caseFold (c :: cs) = foldChar c ++ caseFold cs :=
  List.flatMap_cons

theorem foldChar_infix (h : c ∈ cs) : foldChar c <:+: caseFold cs := by
  obtain ⟨before, after, rfl⟩ := List.append_of_mem h
  refine ⟨caseFold before, caseFold after, ?_⟩
  rw [caseFold, caseFold, caseFold, List.flatMap_append, List.flatMap_cons, List.append_assoc]

/-- A folding that is ASCII throughout is no longer than the bytes. It is as long only if all
characters are ASCII or among the three. -/
theorem length_caseFold_le (hfold : ∀ d ∈ caseFold cs, IsAscii d) :
    (caseFold cs).length ≤ (encodeChars cs).length ∧
      ((caseFold cs).length = (encodeChars cs).length →
        ∀ c ∈ cs, IsAscii c ∨ (c, foldChar c) ∈ compact) := by
  induction cs with
  | nil => exact ⟨Nat.le_refl _, fun _ => nofun⟩
  | cons c cs ih =>
    rw [caseFold_cons] at hfold
    obtain ⟨hle, hrest⟩ := ih fun d hd => hfold d (List.mem_append_right _ hd)
    rw [caseFold_cons, encodeChars_cons, List.length_append, List.length_append,
      String.length_utf8EncodeChar]
    have hfirst : (foldChar c).length < c.utf8Size ∨
        (foldChar c).length = c.utf8Size ∧ (IsAscii c ∨ (c, foldChar c) ∈ compact) := by
      by_cases hc : IsAscii c
      · rw [foldChar_of_isAscii hc, utf8Size_of_isAscii hc]
        exact .inr ⟨rfl, .inl hc⟩
      · have hchar : ∀ d ∈ foldChar c, IsAscii d := fun d hd => hfold d (List.mem_append_left _ hd)
        rcases foldChar_of_not_isAscii hc hchar with hlt | hmem
        · exact .inl hlt
        · exact .inr ⟨foldChar_of_compact hmem, .inr hmem⟩
    rcases hfirst with hlt | ⟨heq, hc⟩
    · exact ⟨by omega, fun hlength => by omega⟩
    · exact ⟨by omega, fun hlength => List.forall_mem_cons.mpr ⟨hc, hrest (by omega)⟩⟩

theorem length_encodeChars_of_isAscii (h : ∀ c ∈ cs, IsAscii c) :
    (encodeChars cs).length = cs.length := by
  induction cs with
  | nil => rfl
  | cons c cs ih =>
    obtain ⟨hc, hcs⟩ := List.forall_mem_cons.mp h
    rw [encodeChars_cons, List.length_append, String.length_utf8EncodeChar, utf8Size_of_isAscii hc,
      ih hcs, List.length_cons]
    omega

/-- What differs from ASCII characters in case only is ASCII. -/
theorem isAscii_of_map_toLower {ds : List Char} (hds : ∀ d ∈ ds, IsAscii d)
    (h : cs.map Char.toLower = ds.map Char.toLower) : ∀ c ∈ cs, IsAscii c := by
  intro c hc
  have hlower : c.toLower ∈ ds.map Char.toLower := h ▸ List.mem_map_of_mem hc
  obtain ⟨d, hd, hsame⟩ := List.mem_map.mp hlower
  exact isAscii_toLower_iff.mp (hsame ▸ isAscii_toLower_iff.mpr (hds d hd))

/-! What is compared equal. -/

/-- A character with the three written out. -/
def spelledOut (c : Char) : List Char :=
  (compact.lookup c).getD [c]

/-- `cs` is read as `ds` in any case: its characters are ASCII or among the three, and with the
three written out it differs from `ds` in the case of letters only. -/
structure ReadsAs (cs ds : List Char) : Prop where
  plain : ∀ c ∈ cs, IsAscii c ∨ c ∈ compact.map Prod.fst
  spelled : (cs.flatMap spelledOut).map Char.toLower = ds.map Char.toLower

theorem foldChar_of_mem_compact : ∀ entry ∈ compact, foldChar entry.1 = entry.2 := by
  decide +kernel

theorem mem_compact_iff : (c, foldChar c) ∈ compact ↔ c ∈ compact.map Prod.fst := by
  constructor
  · exact fun h => List.mem_map_of_mem h
  · intro h
    obtain ⟨entry, hentry, rfl⟩ := List.mem_map.mp h
    rwa [foldChar_of_mem_compact entry hentry]

theorem spelledOut_of_isAscii (h : IsAscii c) : spelledOut c = [c] := by
  have hwide : ∀ entry ∈ compact, ¬ IsAscii entry.1 := by decide
  have hnone : compact.lookup c = none := by
    refine List.lookup_eq_none_iff.mpr fun entry hentry => bne_iff_ne.mpr ?_
    rintro rfl
    exact hwide entry hentry h
  rw [spelledOut, hnone]
  rfl

theorem flatMap_spelledOut_of_isAscii (h : ∀ c ∈ cs, IsAscii c) : cs.flatMap spelledOut = cs := by
  induction cs with
  | nil => rfl
  | cons c cs ih =>
    obtain ⟨hc, hcs⟩ := List.forall_mem_cons.mp h
    rw [List.flatMap_cons, spelledOut_of_isAscii hc, ih hcs, List.singleton_append]

theorem foldChar_eq_spelledOut (h : IsAscii c ∨ c ∈ compact.map Prod.fst) :
    foldChar c = (spelledOut c).map Char.toLower := by
  rcases h with hc | hc
  · rw [foldChar_of_isAscii hc, spelledOut_of_isAscii hc]
    rfl
  · have htable : ∀ entry ∈ compact, foldChar entry.1 = (spelledOut entry.1).map Char.toLower := by
      decide +kernel
    obtain ⟨entry, hentry, rfl⟩ := List.mem_map.mp hc
    exact htable entry hentry

theorem caseFold_eq_spelledOut (h : ∀ c ∈ cs, IsAscii c ∨ c ∈ compact.map Prod.fst) :
    caseFold cs = (cs.flatMap spelledOut).map Char.toLower := by
  induction cs with
  | nil => rfl
  | cons c cs ih =>
    obtain ⟨hc, hcs⟩ := List.forall_mem_cons.mp h
    rw [caseFold_cons, List.flatMap_cons, List.map_append, foldChar_eq_spelledOut hc, ih hcs]

theorem caseFold_of_isAscii (h : ∀ c ∈ cs, IsAscii c) : caseFold cs = cs.map Char.toLower := by
  rw [caseFold_eq_spelledOut fun c hc => .inl (h c hc), flatMap_spelledOut_of_isAscii h]

theorem length_caseFold_of_plain (h : ∀ c ∈ cs, IsAscii c ∨ c ∈ compact.map Prod.fst) :
    (caseFold cs).length = (encodeChars cs).length := by
  induction cs with
  | nil => rfl
  | cons c cs ih =>
    obtain ⟨hc, hcs⟩ := List.forall_mem_cons.mp h
    have hfirst : (foldChar c).length = c.utf8Size := by
      rcases hc with hc | hc
      · rw [foldChar_of_isAscii hc, utf8Size_of_isAscii hc]
        rfl
      · exact foldChar_of_compact (mem_compact_iff.mpr hc)
    rw [caseFold_cons, encodeChars_cons, List.length_append, List.length_append,
      String.length_utf8EncodeChar, hfirst, ih hcs]

/-- A literal of ASCII characters is compared equal to the encodings of what is read as it, and to
nothing else. -/
theorem foldsTo_iff_readsAs {text : String} (htext : ∀ c ∈ text.toList, IsAscii c)
    {bytes : List UInt8} :
    Cursor.foldsTo text (encode text).length bytes = true ↔
      ∃ cs, bytes = encodeChars cs ∧ ReadsAs cs text.toList := by
  have hsize : (encode text).length = text.toList.length := length_encodeChars_of_isAscii htext
  rw [Cursor.foldsTo, Bool.and_eq_true, beq_iff_eq, beq_iff_eq, Option.map_eq_some_iff,
    caseFold_of_isAscii htext, hsize]
  constructor
  · rintro ⟨hlength, cs, hdecode, hfold⟩
    obtain rfl := decode?_eq_some_iff.mp hdecode
    have hascii : ∀ d ∈ caseFold cs, IsAscii d := by
      intro d hd
      rw [hfold, List.mem_map] at hd
      obtain ⟨c, hc, rfl⟩ := hd
      exact isAscii_toLower_iff.mpr (htext c hc)
    have hequal : (caseFold cs).length = (encodeChars cs).length := by
      rw [hfold, hlength, List.length_map]
    have hplain : ∀ c ∈ cs, IsAscii c ∨ c ∈ compact.map Prod.fst := fun c hc =>
      ((length_caseFold_le hascii).2 hequal c hc).imp_right mem_compact_iff.mp
    exact ⟨cs, rfl, hplain, by rw [← caseFold_eq_spelledOut hplain, hfold]⟩
  · rintro ⟨cs, rfl, hplain, hspelled⟩
    have hfold : caseFold cs = text.toList.map Char.toLower := by
      rw [caseFold_eq_spelledOut hplain, hspelled]
    refine ⟨?_, cs, decode?_eq_some_iff.mpr rfl, hfold⟩
    rw [← length_caseFold_of_plain hplain, hfold, List.length_map]

/-- Without room for the three, what is read as an ASCII text differs from it in the case of letters
only. -/
theorem readsAs_iff {ds : List Char} (hds : ∀ d ∈ ds, IsAscii d)
    (hroom : ∀ entry ∈ compact, ¬ entry.2 <:+: ds.map Char.toLower) :
    ReadsAs cs ds ↔ cs.map Char.toLower = ds.map Char.toLower := by
  constructor
  · intro h
    have hcs : ∀ c ∈ cs, IsAscii c := by
      intro c hc
      refine (h.plain c hc).resolve_right fun hcompact => ?_
      have hinfix := foldChar_infix hc
      rw [caseFold_eq_spelledOut h.plain, h.spelled] at hinfix
      exact hroom _ (mem_compact_iff.mpr hcompact) hinfix
    rw [← h.spelled, flatMap_spelledOut_of_isAscii hcs]
  · intro h
    have hcs := isAscii_of_map_toLower hds h
    exact ⟨fun c hc => .inl (hcs c hc), by rw [flatMap_spelledOut_of_isAscii hcs, h]⟩

/-- What a literal of ASCII characters is compared equal to, where it has no room for the three:
itself, in any case. -/
theorem foldsTo_iff {text : String} (htext : ∀ c ∈ text.toList, IsAscii c)
    (hroom : ∀ entry ∈ compact, ¬ entry.2 <:+: text.toList.map Char.toLower) {bytes : List UInt8} :
    Cursor.foldsTo text (encode text).length bytes = true ↔
      ∃ cs, bytes = encodeChars cs ∧ cs.map Char.toLower = text.toList.map Char.toLower := by
  simp only [foldsTo_iff_readsAs htext, readsAs_iff htext hroom]

end Scannerless.Text
