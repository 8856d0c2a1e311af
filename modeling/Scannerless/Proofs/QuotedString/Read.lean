import Scannerless.Proofs.QuotedString.Diagnosis

/-!
# Reading escaped strings

Main statement: the reader of escaped strings accepts the quoted strings and nothing else, and gives
what they stand for; the parser does so at every boundary, whatever follows. What is refused is
refused with the diagnosis of its bytes.
-/
namespace Scannerless.Grammar.EscapedString

open Scannerless.Parser QuotedString Text.Utf8

variable {c : Cursor} {q : List Char} {s : String}

theorem yields_whole (hc : c.failed = false) (ho : 0 ≤ c.offset)
    (h : c.source.Runes c.offset q c.source.size) (hquotes : Quotes q s) :
    Yields [] (bodyLevels c.source + 8) whole c (c.withResult (.text s) c.source.size) := by
  have hstring := yields_string hc ho h hquotes
  have hend : (c.withResult (.text s) c.source.size).atEnd = true :=
    (atEnd_iff (show 0 ≤ (c.source.size : Int) by omega)).mpr (Int.le_refl _)
  have hrest : Yields [] 1 atEnd (c.withResult (.text s) c.source.size)
      (c.withResult (.text s) c.source.size) :=
    yields_custom hc (by rw [if_pos hend])
  have hrow := Passes.cons hstring hc (.cons (hrest.mono (by omega)) hc (.nil _))
  exact yields_map hc (yields_sequence hc hrow false) hc rfl

variable {bytes : Array UInt8}

theorem levels_enough (source : Source) : bodyLevels source + 8 ≤ levels source := by
  unfold levels bodyLevels
  omega

theorem read_eq_of_yields (hsize : (bytes.size : Int) ≤ Engine.usualLimit) {r : Cursor}
    (h : Yields [] (bodyLevels (.ofBytes bytes) + 8) whole (.ofSource (.ofBytes bytes)) r) :
    read bytes = .ofExcept r.unwrap := by
  have hlimit : ¬ Engine.usual.limit < (Source.ofBytes bytes).size := Int.not_lt.mpr hsize
  have hrefuses : Engine.usual.refuses (Source.ofBytes bytes).size = false := by
    simp [Engine.refuses, hlimit]
  have hrun : (Grammar.ofParser whole).run (.ofSource (.ofBytes bytes)) = .value r :=
    run_of_yields h (levels_enough _)
  rw [read, Engine.parseBytes, Engine.parseSource, hrefuses, hrun]
  rfl

theorem read_of_quotes (hsize : (bytes.size : Int) ≤ Engine.usualLimit)
    (h : (Source.ofBytes bytes).Runes 0 q bytes.size) (hquotes : Quotes q s) :
    read bytes = .value (.text s) :=
  read_eq_of_yields hsize
    (yields_whole (c := .ofSource (.ofBytes bytes)) rfl (Int.le_refl 0) h hquotes)

theorem read_of_diagnosis (hsize : (bytes.size : Int) ≤ Engine.usualLimit) {d : Diagnostic}
    (h : Diagnosis (.ofBytes bytes) d) :
    ∃ line column, read bytes = .raised (.parseFailed d line column) := by
  obtain ⟨line, column, hunwrap⟩ := Cursor.unwrap_eq_parseFailed
    (c := (Cursor.ofSource (.ofBytes bytes)).withError d) rfl h.offset_nonneg
  refine ⟨line, column, ?_⟩
  rw [read_eq_of_yields hsize (yields_of_diagnosis h), hunwrap, Outcome.ofExcept_error]

theorem read_raises (hsize : (bytes.size : Int) ≤ Engine.usualLimit)
    (h : ∀ q s, (Source.ofBytes bytes).Runes 0 q bytes.size → ¬ Quotes q s) :
    ∃ d line column, read bytes = .raised (.parseFailed d line column) := by
  obtain ⟨d, hd⟩ := exists_diagnosis h
  exact ⟨d, read_of_diagnosis hsize hd⟩

/-- The reader gives a value exactly where the runes of all the bytes are a quoted string. -/
theorem read_eq_value_iff (hsize : (bytes.size : Int) ≤ Engine.usualLimit) (v : Value) :
    read bytes = .value v ↔
      ∃ q s, v = .text s ∧ (Source.ofBytes bytes).Runes 0 q bytes.size ∧ Quotes q s := by
  constructor
  · intro h
    by_cases hstring : ∃ q s, (Source.ofBytes bytes).Runes 0 q bytes.size ∧ Quotes q s
    · obtain ⟨q, s, hq, hquotes⟩ := hstring
      rw [read_of_quotes hsize hq hquotes] at h
      exact ⟨q, s, (Outcome.value.inj h).symm, hq, hquotes⟩
    · obtain ⟨d, line, column, hraised⟩ := read_raises hsize
        fun q s hq hquotes => hstring ⟨q, s, hq, hquotes⟩
      rw [hraised] at h
      cases h
  · rintro ⟨q, s, rfl, hq, hquotes⟩
    exact read_of_quotes hsize hq hquotes

/-- The parser ends at every offset, and it succeeds exactly where a quoted string starts. -/
theorem run_string (hc : c.failed = false) (ho : 0 ≤ c.offset) :
    ∃ r, (Grammar.ofParser parser).run c = .value r ∧
      (r.failed = false ↔ ∃ q e s, c.source.Runes c.offset q e ∧ Quotes q s) ∧
      ∀ q e s, c.source.Runes c.offset q e → Quotes q s → r.result = .text s ∧ r.offset = e := by
  have hlevels : bodyLevels c.source + 6 ≤ levels c.source :=
    Nat.le_trans (by omega) (levels_enough c.source)
  by_cases hstring : ∃ q e s, c.source.Runes c.offset q e ∧ Quotes q s
  · obtain ⟨q, e, s, hq, hquotes⟩ := hstring
    have hparser := yields_string hc ho hq hquotes
    refine ⟨_, run_of_yields hparser hlevels, ⟨fun _ => ⟨q, e, s, hq, hquotes⟩, fun _ => hc⟩, ?_⟩
    -- A run gives one cursor only, so another string that starts here is the same one.
    intro q' e' s' hq' hquotes'
    have hsame := hparser.unique (yields_string hc ho hq' hquotes')
    exact ⟨congrArg Cursor.result hsame, congrArg Cursor.offset hsame⟩
  · obtain ⟨d, hd, _⟩ := string_fails hc ho
      fun q e s hq hquotes => hstring ⟨q, e, s, hq, hquotes⟩
    refine ⟨_, run_of_yields hd hlevels, ⟨fun hr => (by cases hr), fun h => absurd h hstring⟩, ?_⟩
    exact fun q e s hq hquotes => absurd ⟨q, e, s, hq, hquotes⟩ hstring

/-! Texts, whose runes are their characters. -/

theorem runes_ofText_iff {text : String} :
    (Source.ofText text).Runes 0 q (Source.ofText text).size ↔ q = text.toList := by
  have hsize : (Source.ofText text).size = (encodeChars text.toList).length := List.size_toArray
  have hboundary : (Source.ofText text).Runes 0 q (Source.ofText text).size ↔ ∃ rest,
      text.toList = q ++ rest ∧ ((Source.ofText text).size : Int) = 0 + (encodeChars q).length :=
    Source.runes_boundary_iff [] text.toList
  rw [hboundary, hsize]
  constructor
  · rintro ⟨rest, hsplit, hlength⟩
    rw [hsplit, encodeChars_append, List.length_append] at hlength
    have hrest : rest = [] := eq_nil_of_length_encodeChars (by omega)
    rw [hsplit, hrest, List.append_nil]
  · rintro rfl
    exact ⟨[], (List.append_nil _).symm, (Int.zero_add _).symm⟩

theorem runes_after_iff {before after : String} {e : Int} :
    (Source.ofText (before ++ after)).Runes (encode before).length q e ↔
      ∃ rest, after.toList = q ++ rest ∧ e = (encode before).length + (encodeChars q).length := by
  rw [Source.ofText, encode, String.toList_append]
  exact Source.runes_boundary_iff before.toList after.toList

theorem read_text_eq_value_iff {text : String}
    (hsize : ((encode text).length : Int) ≤ Engine.usualLimit) (v : Value) :
    read (encode text).toArray = .value v ↔ ∃ s, v = .text s ∧ Quotes text.toList s := by
  rw [read_eq_value_iff (by rwa [List.size_toArray])]
  constructor
  · rintro ⟨q, s, rfl, hq, hquotes⟩
    obtain rfl := runes_ofText_iff.mp hq
    exact ⟨s, rfl, hquotes⟩
  · rintro ⟨s, rfl, hquotes⟩
    exact ⟨text.toList, s, rfl, runes_ofText_iff.mpr rfl, hquotes⟩

theorem read_text_raises {text : String} (hsize : ((encode text).length : Int) ≤ Engine.usualLimit)
    (h : ∀ s, ¬ Quotes text.toList s) :
    ∃ d line column, read (encode text).toArray = .raised (.parseFailed d line column) := by
  apply read_raises (by rwa [List.size_toArray])
  intro q s hq hquotes
  obtain rfl := runes_ofText_iff.mp hq
  exact h s hquotes

theorem read_quoted
    (hsize : ((encode (String.ofList (quoted s))).length : Int) ≤ Engine.usualLimit) :
    read (encode (String.ofList (quoted s))).toArray = .value (.text s) := by
  rw [read_text_eq_value_iff hsize]
  exact ⟨s, rfl, by rw [String.toList_ofList]; exact quotes_quoted s⟩

theorem run_string_after {before after : String} (hsource : c.source = .ofText (before ++ after))
    (hc : c.failed = false) (ho : c.offset = (encode before).length) :
    ∃ r, (Grammar.ofParser parser).run c = .value r ∧
      (r.failed = false ↔ ∃ q rest s, after.toList = q ++ rest ∧ Quotes q s) ∧
      ∀ q rest s, after.toList = q ++ rest → Quotes q s →
        r.result = .text s ∧ r.offset = (encode before).length + (encodeChars q).length := by
  obtain ⟨r, hrun, hsucceeds, hresult⟩ := run_string hc (show 0 ≤ c.offset by omega)
  rw [hsource, ho] at hsucceeds hresult
  refine ⟨r, hrun, ?_, fun q rest s hsplit hquotes => ?_⟩
  · rw [hsucceeds]
    constructor
    · rintro ⟨q, e, s, hq, hquotes⟩
      obtain ⟨rest, hsplit, _⟩ := runes_after_iff.mp hq
      exact ⟨q, rest, s, hsplit, hquotes⟩
    · rintro ⟨q, rest, s, hsplit, hquotes⟩
      exact ⟨q, _, s, runes_after_iff.mpr ⟨rest, hsplit, rfl⟩, hquotes⟩
  · exact hresult q _ s (runes_after_iff.mpr ⟨rest, hsplit, rfl⟩) hquotes

/-- Escaped strings are read exactly. A text is accepted where it is a quoted string, which decodes
to what it stands for, and refused as a failed parse otherwise; quoting is undone by reading. Inside
a text the parser accepts a quoted string at any boundary, whatever follows it. Raw bytes are read
in the same way by their runes, at any offset. -/
theorem escaped_strings_exact :
    (∀ text : String, ((encode text).length : Int) ≤ Engine.usualLimit →
      (∀ v, read (encode text).toArray = .value v ↔ ∃ s, v = .text s ∧ Quotes text.toList s) ∧
      ((∀ s, ¬ Quotes text.toList s) →
        ∃ d line column, read (encode text).toArray = .raised (.parseFailed d line column))) ∧
    (∀ s : String, ((encode (String.ofList (quoted s))).length : Int) ≤ Engine.usualLimit →
      read (encode (String.ofList (quoted s))).toArray = .value (.text s)) ∧
    (∀ (before after : String) (c : Cursor), c.source = .ofText (before ++ after) →
      c.failed = false → c.offset = (encode before).length →
      ∃ r, (Grammar.ofParser parser).run c = .value r ∧
        (r.failed = false ↔ ∃ q rest s, after.toList = q ++ rest ∧ Quotes q s) ∧
        ∀ q rest s, after.toList = q ++ rest → Quotes q s →
          r.result = .text s ∧ r.offset = (encode before).length + (encodeChars q).length) ∧
    (∀ bytes : Array UInt8, (bytes.size : Int) ≤ Engine.usualLimit →
      (∀ v, read bytes = .value v ↔
        ∃ q s, v = .text s ∧ (Source.ofBytes bytes).Runes 0 q bytes.size ∧ Quotes q s) ∧
      ((∀ q s, (Source.ofBytes bytes).Runes 0 q bytes.size → ¬ Quotes q s) →
        ∃ d line column, read bytes = .raised (.parseFailed d line column))) ∧
    (∀ c : Cursor, c.failed = false → 0 ≤ c.offset →
      ∃ r, (Grammar.ofParser parser).run c = .value r ∧
        (r.failed = false ↔ ∃ q e s, c.source.Runes c.offset q e ∧ Quotes q s) ∧
        ∀ q e s, c.source.Runes c.offset q e → Quotes q s → r.result = .text s ∧ r.offset = e) := by
  refine ⟨fun text hsize => ⟨?_, ?_⟩, fun s hsize => read_quoted hsize,
    fun before after c hsource hc ho => run_string_after hsource hc ho, fun bytes hsize => ⟨?_, ?_⟩,
    fun c hc ho => run_string hc ho⟩
  · exact read_text_eq_value_iff hsize
  · exact read_text_raises hsize
  · exact read_eq_value_iff hsize
  · exact read_raises hsize

/-- A code point, a plain character and an escaped quote, read as a text. -/
theorem escaped_strings_exact_mixed :
    read (encode "\"\\u00e4b\\\"\"").toArray = .value (.text "äb\"") := by
  have hread := (escaped_strings_exact.1 "\"\\u00e4b\\\"\"" (by decide)).1 (.text "äb\"")
  refine hread.mpr ⟨"äb\"", rfl, ['\\', 'u', '0', '0', 'e', '4', 'b', '\\', '"'], by decide, ?_⟩
  have hzero : HexDigit '0' 0 := .decimal (i := 0) (by decide)
  have hcode : Item ['\\', 'u', '0', '0', 'e', '4'] 'ä' :=
    .escape
      (.codePoint hzero hzero (.lower (i := 4) (by decide)) (.decimal (i := 4) (by decide)) rfl
      (by decide))
  exact .cons hcode (.cons (.plain (by decide) (by decide)) (.cons (.escape .quote) .nil))

/-- The reader fails exactly with the diagnosis of its bytes. -/
theorem read_eq_parseFailed_iff (hsize : (bytes.size : Int) ≤ Engine.usualLimit) {d : Diagnostic} :
    (∃ line column, read bytes = .raised (.parseFailed d line column)) ↔
      Diagnosis (.ofBytes bytes) d := by
  refine ⟨?_, read_of_diagnosis hsize⟩
  rintro ⟨line, column, hraised⟩
  have hnone : ∀ q s, (Source.ofBytes bytes).Runes 0 q bytes.size → ¬ Quotes q s := by
    intro q s hq hquotes
    rw [read_of_quotes hsize hq hquotes] at hraised
    cases hraised
  obtain ⟨d', hd'⟩ := exists_diagnosis hnone
  obtain ⟨line', column', hraised'⟩ := read_of_diagnosis hsize hd'
  rw [hraised'] at hraised
  cases hraised
  exact hd'

/-- Failures of escaped strings are diagnosed exactly. What fails fails with the diagnosis of the
bytes, and bytes that are not read have one. No diagnosis is a failure of the choice between items
or of a repetition. Where the items end at a backslash, the escape that is tried once more fails,
and its failure is the complaint. -/
theorem failures_diagnosed :
    (∀ bytes : Array UInt8, (bytes.size : Int) ≤ Engine.usualLimit →
      (∀ d, (∃ line column, read bytes = .raised (.parseFailed d line column)) ↔
        Diagnosis (.ofBytes bytes) d) ∧
      ((∀ v, read bytes ≠ .value v) → ∃ d, Diagnosis (.ofBytes bytes) d)) ∧
    (∀ (source : Source) (d : Diagnostic), Diagnosis source d →
      d.code ≠ some .noChoiceMatched ∧ d.code ≠ some .noRepetition ∧
      d.code ≠ some .repetitionCount) ∧
    ∀ c : Cursor, ItemsEnd c.source c.offset → c.source.readRune c.offset = some ('\\', 1) →
      ∃ d, BadEscape c.source c.offset d ∧
        (Grammar.ofParser escape).run c.fresh = .value (c.fresh.withError d) ∧
        closingComplaint c = .value (.record d) := by
  refine ⟨fun bytes hsize => ⟨fun d => read_eq_parseFailed_iff hsize, fun hfails => ?_⟩,
    fun source d h => ?_, fun c hitems hslash => ?_⟩
  · refine exists_diagnosis fun q s hq hquotes => ?_
    exact hfails _ (read_of_quotes hsize hq hquotes)
  · have hcode := h.code_eq
    refine ⟨?_, ?_, ?_⟩ <;> (intro hne; rw [hne] at hcode; simp at hcode)
  · obtain ⟨d, hd⟩ := exists_badEscape hslash fun ws e ch hws hescape =>
      hitems.stop ws e ch hws (.escape hescape)
    have ho := (Source.readRune_bounds hslash).1
    have hescape := yields_escape_fails (c := c.fresh) rfl hslash hd
    exact ⟨d, hd, run_of_yields hescape (by unfold levels; omega),
      closingComplaint_eq ho (.escape hslash hd)⟩

/-- A surrogate, behind no other item. -/
theorem failures_diagnosed_surrogate :
    (∃ line column, read (encode "\"\\ud800\"").toArray =
      .raised (.parseFailed ⟨"Invalid surrogate code point: U+D800", 7, [], none⟩ line column)) ∧
    (∃ d, BadEscape (.ofText "\"\\ud800\"") 1 d ∧
      closingComplaint ⟨.ofText "\"\\ud800\"", 1, .text "", none⟩ = .value (.record d)) := by
  have hzero : HexDigit '0' 0 := .decimal (i := 0) (by decide)
  have hdigits : FourDigits ['d', '8', '0', '0'] 0xD800 :=
    .intro (.lower (i := 3) (by decide)) (.decimal (i := 8) (by decide)) hzero hzero
  have hslash : (Source.ofText "\"\\ud800\"").readRune 1 = some ('\\', 1) := rfl
  have hruns : (Source.ofText "\"\\ud800\"").Runes (1 + 2) ['d', '8', '0', '0'] (1 + 6) :=
    .cons (w := 1) rfl (.cons (w := 1) rfl (.cons (w := 1) rfl (.cons (w := 1) rfl (.nil _))))
  have hmistake := BadEscape.surrogate (i := 1) rfl hdigits hruns (by decide) (by decide)
  have hitems : ItemsEnd (.ofText "\"\\ud800\"") 1 :=
    itemsEnd_of_stop rfl (.nil 1) .nil (not_item_of_badEscape hslash hmistake)
  have hdiagnosis := Diagnosis.brokenOff hitems (by decide) (.escape hslash hmistake)
  obtain ⟨d, hd, -, hcomplaint⟩ :=
    failures_diagnosed.2.2 ⟨.ofText "\"\\ud800\"", 1, .text "", none⟩ hitems hslash
  exact ⟨((failures_diagnosed.1 _ (by decide)).1 _).mpr hdiagnosis, d, hd, hcomplaint⟩

end Scannerless.Grammar.EscapedString
