import Scannerless.Grammar.EscapedString
import Scannerless.Proofs.QuotedString.Mistakes
import Scannerless.Proofs.Matchers

/-!
# Escapes are parsed as they are written

Where the runes at a cursor are an escape, the parser of escapes yields the character that it stands
for. Where a backslash starts no escape, it fails with the mistake that stands there. A cursor that
has not failed differs from the one it started at only in its result and offset, which is how all
runs here are stated.
-/
namespace Scannerless.Grammar.EscapedString

open Scannerless.Parser QuotedString Text.Utf8

variable {c : Cursor} {ch : Char} {w : Nat} {e : Int}

theorem char_le_iff {a b : Char} : a ≤ b ↔ a.toNat ≤ b.toNat := by
  rw [Char.le_def, UInt32.le_iff_toNat_le]
  rfl

theorem hexDigit?_eq_some_iff {v : Nat} : hexDigit? ch = some v ↔ HexDigit ch v := by
  have hzero : '0'.toNat = 0x30 := rfl
  have hnine : '9'.toNat = 0x39 := rfl
  have hlower : 'a'.toNat = 0x61 ∧ 'f'.toNat = 0x66 := ⟨rfl, rfl⟩
  have hupper : 'A'.toNat = 0x41 ∧ 'F'.toNat = 0x46 := ⟨rfl, rfl⟩
  constructor
  · intro h
    simp only [hexDigit?, char_le_iff] at h
    -- In each range the digit is the first one of the range and its distance from there.
    split at h
    · have hdigit : HexDigit (Char.ofNat ('0'.toNat + v)) v := by
        apply HexDigit.decimal
        have hv := Option.some.inj h
        omega
      have hchar : '0'.toNat + v = ch.toNat := by
        have hv := Option.some.inj h
        omega
      rwa [hchar, Char.ofNat_toNat] at hdigit
    · split at h
      · obtain ⟨i, rfl⟩ : ∃ i, v = 10 + i := ⟨v - 10, by have hv := Option.some.inj h; omega⟩
        have hv := Option.some.inj h
        have hdigit : HexDigit (Char.ofNat ('a'.toNat + i)) (10 + i) :=
          HexDigit.lower (i := i) (by omega)
        have hchar : 'a'.toNat + i = ch.toNat := by omega
        rwa [hchar, Char.ofNat_toNat] at hdigit
      · split at h
        · obtain ⟨i, rfl⟩ : ∃ i, v = 10 + i := ⟨v - 10, by have hv := Option.some.inj h; omega⟩
          have hv := Option.some.inj h
          have hdigit : HexDigit (Char.ofNat ('A'.toNat + i)) (10 + i) :=
            HexDigit.upper (i := i) (by omega)
          have hchar : 'A'.toNat + i = ch.toNat := by omega
          rwa [hchar, Char.ofNat_toNat] at hdigit
        · cases h
  · intro h
    cases h with
    | decimal hi =>
      exact (by decide : ∀ i < 10, hexDigit? (Char.ofNat ('0'.toNat + i)) = some i) _ hi
    | lower hi =>
      exact (by decide : ∀ i < 6, hexDigit? (Char.ofNat ('a'.toNat + i)) = some (10 + i)) _ hi
    | upper hi =>
      exact (by decide : ∀ i < 6, hexDigit? (Char.ofNat ('A'.toNat + i)) = some (10 + i)) _ hi

theorem charsOf_tuple (ds : List Char) :
    charsOf (.tuple (ds.map fun d => .text (String.singleton d))) = ds := by
  simp only [charsOf, Value.join_singletons, String.toList_ofList]

theorem charsOf_text (d : Char) : charsOf (.text (String.singleton d)) = [d] := by
  simp [charsOf, Value.join]

/-! The part behind the backslash. -/

/-- Four digits are as many as an escape takes, each of them is known, and they write their
number. -/
theorem hexValue_of_fourDigits {ds : List Char} {v : Nat} (h : FourDigits ds v) :
    ds.length = escapeDigits ∧ (∀ d ∈ ds, (hexDigit? d).isSome = true) ∧ hexValue ds = v := by
  cases h with
  | intro ha hb hd hf =>
    simp [escapeDigits, hexValue, hexDigit?_eq_some_iff.mpr ha, hexDigit?_eq_some_iff.mpr hb,
      hexDigit?_eq_some_iff.mpr hd, hexDigit?_eq_some_iff.mpr hf]

theorem exists_fourDigits {ds : List Char} (hlength : ds.length = escapeDigits)
    (hds : ∀ d ∈ ds, (hexDigit? d).isSome = true) : ∃ v, FourDigits ds v := by
  match ds, hlength with
  | [a, b, d, f], _ =>
    simp only [List.forall_mem_cons, Option.isSome_iff_exists, hexDigit?_eq_some_iff] at hds
    obtain ⟨⟨i, ha⟩, ⟨j, hb⟩, ⟨k, hd⟩, ⟨l, hf⟩, _⟩ := hds
    exact ⟨_, .intro ha hb hd hf⟩

theorem scalarOf_tuple (ds : List Char) :
    scalarOf (.tuple (ds.map fun d => .text (String.singleton d))) =
      if 0xD800 ≤ hexValue ds ∧ hexValue ds ≤ 0xDFFF then
        .fail (.message
          ("Invalid surrogate code point: U+" ++ String.ofList (ds.map Char.toUpper)))
      else .succeed (.text (String.singleton (Char.ofNat (hexValue ds)))) := by
  simp only [scalarOf, charsOf_tuple]

/-- Four hexadecimal digits, without regard to what they write. -/
theorem yields_digits (hc : c.failed = false) {ds : List Char} (h : c.source.Runes c.offset ds e)
    (hlength : ds.length = escapeDigits) (hds : ∀ d ∈ ds, (hexDigit? d).isSome = true)
    (explain : Cursor → Outcome Complaint) :
    Yields [] 3
      (.mapError
        (.exactly escapeDigits (.rune (fun d => .value (hexDigit? d).isSome) none "hex digit"))
        explain) c
      (c.withResult (.tuple (ds.map fun d => .text (String.singleton d))) e) := by
  obtain ⟨v, hpasses⟩ := runes_pass none "hex digit" h hc hds
  rw [hlength] at hpasses
  exact yields_mapError hc (yields_exactly hc hpasses) hc

theorem yields_scalarEscape (hc : c.failed = false) {ds : List Char}
    (h : c.source.Runes c.offset ds e) (hescape : Escape ('\\' :: 'u' :: ds) ch) :
    Yields [] 4 scalarEscape c (c.withResult (.text (String.singleton ch)) e) := by
  cases hescape with
  | @codePoint a b d f i j k l v ha hb hd hf hv hsurrogate =>
    obtain ⟨hlength, hdigits, hvalue⟩ := hexValue_of_fourDigits (.intro ha hb hd hf)
    refine yields_chain hc (yields_digits hc h hlength hdigits _) hc ?_
    have hrange : ¬ (0xD800 ≤ v ∧ v ≤ 0xDFFF) := by omega
    rw [Cursor.result_withResult, scalarOf_tuple, hvalue, ← hv, if_neg hrange]
    exact (yields_succeed (c := c.withResult _ e) hc _).mono (by omega)

theorem yields_scalarEscape_surrogate (hc : c.failed = false) {ds : List Char} {v : Nat}
    (h : c.source.Runes c.offset ds e) (hds : FourDigits ds v) (hlow : 0xD800 ≤ v)
    (hhigh : v ≤ 0xDFFF) :
    Yields [] 4 scalarEscape c
      ((c.withResult (.tuple (ds.map fun d => .text (String.singleton d))) e).withError
        ⟨"Invalid surrogate code point: U+" ++ String.ofList (ds.map Char.toUpper), e, [],
          none⟩) := by
  obtain ⟨hlength, hdigits, hvalue⟩ := hexValue_of_fourDigits hds
  refine yields_chain hc (yields_digits hc h hlength hdigits _) hc ?_
  rw [Cursor.result_withResult, scalarOf_tuple, hvalue, if_pos ⟨hlow, hhigh⟩]
  exact (yields_fail (c := c.withResult _ e) hc _).mono (by omega)

theorem yields_scalarEscape_few (hc : c.failed = false)
    (h : ∀ ds v e, FourDigits ds v → ¬ c.source.Runes c.offset ds e) :
    Yields [] 4 scalarEscape c (c.withError (digitsError c.offset)) := by
  have hnone : ∀ ds e, c.source.Runes c.offset ds e → ds.length = escapeDigits →
      ¬ ∀ d ∈ ds, (hexDigit? d).isSome = true := by
    intro ds e hruns hlength hdigits
    obtain ⟨v, hds⟩ := exists_fourDigits hlength hdigits
    exact h ds v e hds hruns
  obtain ⟨k, rs, last, hk, hpasses, hstop⟩ := runes_stop none "hex digit" hc hnone
  have hexactly := yields_exactly_fails hc hpasses hstop hk
  -- The failure of the repetition is replaced.
  show Yields [] 4 scalarEscape c
    ((c.withError (.repetitionCount escapeDigits c.offset)).complain
      (.record (digitsError c.offset)))
  exact yields_chain_fails hc (yields_mapError_fails hc hexactly rfl rfl) rfl

theorem escapeBody_u : escapeBody (.text (String.singleton 'u')) = scalarEscape := by
  rw [escapeBody, charsOf_text]
  rfl

theorem escapeBody_of_ne {x : Char} (hx : x ≠ 'u') :
    escapeBody (.text (String.singleton x)) =
      match simpleEscapes.lookup x with
      | some meaning => .succeed (.text (String.singleton meaning))
      | none => .fail (.message ("Invalid escape sequence: \\" ++ String.singleton x)) := by
  rw [escapeBody, charsOf_text]
  split
  · rename_i heq
    exact absurd (List.head_eq_of_cons_eq heq) hx
  · rename_i heq
    obtain rfl := List.head_eq_of_cons_eq heq
    rfl
  · rename_i hnot
    exact absurd rfl (hnot x)

/-- The table of escapes of one letter holds what the grammar says. -/
theorem lookup_simpleEscapes_iff {x meaning : Char} :
    simpleEscapes.lookup x = some meaning ↔ Escape ['\\', x] meaning := by
  constructor
  · intro h
    obtain ⟨before, after, hsplit, _⟩ := List.lookup_eq_some_iff.mp h
    have hmem : (x, meaning) ∈ simpleEscapes := by
      rw [hsplit]
      simp
    simp only [simpleEscapes, List.mem_cons, Prod.mk.injEq, List.not_mem_nil, or_false] at hmem
    rcases hmem with ⟨rfl, rfl⟩ | ⟨rfl, rfl⟩ | ⟨rfl, rfl⟩ | ⟨rfl, rfl⟩ | ⟨rfl, rfl⟩
    · exact .quote
    · exact .backslash
    · exact .newline
    · exact .tab
    · exact .carriageReturn
  · intro h
    cases h <;> decide

theorem yields_escapeBody (hc : c.failed = false) {x : Char} {ds : List Char}
    (h : c.source.Runes c.offset ds e) (hescape : Escape ('\\' :: x :: ds) ch) :
    Yields [] 4 (escapeBody (.text (String.singleton x))) c
      (c.withResult (.text (String.singleton ch)) e) := by
  by_cases hx : x = 'u'
  · subst hx
    rw [escapeBody_u]
    exact yields_scalarEscape hc h hescape
  · obtain ⟨_, _, hsplit, hnil⟩ := Escape.eq_cons hescape
    obtain ⟨rfl, rfl⟩ := List.cons.inj (List.cons.inj hsplit).2
    obtain rfl := hnil hx
    cases h
    rw [escapeBody_of_ne hx, lookup_simpleEscapes_iff.mpr hescape]
    exact (yields_succeed hc _).mono (by omega)

theorem yields_escapeBody_letter (hc : c.failed = false) {x : Char} (hx : x ≠ 'u')
    (h : ∀ meaning, ¬ Escape ['\\', x] meaning) :
    Yields [] 4 (escapeBody (.text (String.singleton x))) c
      (c.withError ⟨"Invalid escape sequence: \\" ++ String.singleton x, c.offset, [], none⟩) := by
  rw [escapeBody_of_ne hx]
  cases hlookup : simpleEscapes.lookup x with
  | none => exact (yields_fail hc _).mono (by omega)
  | some meaning => exact absurd (lookup_simpleEscapes_iff.mp hlookup) (h meaning)

/-! The whole escape. -/

/-- The rune behind the backslash says what the rest of the escape must be. -/
theorem yields_escapeBody_behind (hc : c.failed = false) {x : Char} {m : Int} {r : Cursor}
    (hread : c.source.readRune c.offset = some (x, w)) (hm : c.offset + w = m)
    (hbody : Yields [] 4 (escapeBody (.text (String.singleton x)))
      (c.withResult (.text (String.singleton x)) m) r) :
    Yields [] 5 (.chain Parser.anyRune escapeBody) c r := by
  subst hm
  exact yields_chain hc ((yields_anyRune hc hread).mono (show 1 ≤ 4 by omega)) hc hbody

theorem encode_backslash : encode backslashText = String.utf8EncodeChar '\\' := by decide

theorem yields_discard (hc : c.failed = false) (ho : 0 ≤ c.offset)
    (hread : c.source.readRune c.offset = some ('\\', w)) :
    Yields [] 3 (Parser.discard (.literal backslashText)) c
      (c.withResult .nothing (c.offset + w)) :=
  yields_named hc (yields_map hc (yields_literal hc ho encode_backslash (by decide) hread) hc rfl)

theorem yields_discard_fails (hc : c.failed = false) (ho : 0 ≤ c.offset)
    (hread : ∀ w, c.source.readRune c.offset ≠ some ('\\', w)) :
    Yields [] 3 (Parser.discard (.literal backslashText)) c
      (c.withError (.literalMismatch backslashText c.offset)) :=
  yields_named hc (yields_map_fails hc
    (yields_literal_fails hc ho encode_backslash (by decide) hread) rfl)

theorem yields_escape (hc : c.failed = false) (ho : 0 ≤ c.offset) {ws : List Char}
    (h : c.source.Runes c.offset ws e) (hescape : Escape ws ch) :
    Yields [] 7 escape c (c.withResult (.text (String.singleton ch)) e) := by
  obtain ⟨x, ds, rfl, _⟩ := Escape.eq_cons hescape
  cases h with
  | @cons _ _ _ w _ hslash hrest =>
    cases hrest with
    | @cons _ _ _ w' _ hx hds =>
      have hdiscard := (yields_discard hc ho hslash).mono (show 3 ≤ 5 by omega)
      have hbody := yields_escapeBody
        (c := c.withResult (.text (String.singleton x)) (c.offset + w + w')) hc hds hescape
      have hchain := yields_escapeBody_behind (c := c.withResult .nothing (c.offset + w)) hc hx rfl
        hbody
      have hrow := Passes.cons hdiscard hc (.cons hchain hc (.nil _))
      exact yields_map hc (yields_sequence hc hrow true) hc rfl

/-- The part behind the backslash fails with the mistake, wherever that is found. -/
theorem yields_escapeBody_fails (hc : c.failed = false) {i : Int} {d : Diagnostic}
    (hi : c.offset = i + 1) (h : BadEscape c.source i d) :
    ∃ f, Yields [] 5 (.chain Parser.anyRune escapeBody) c f ∧ f.error = some d := by
  cases h with
  | noRune hnone =>
    rw [← hi] at hnone ⊢
    have hany : Yields [] 1 Parser.anyRune c _ := yields_rune_end "any rune" hc hnone
    exact ⟨_, yields_chain_fails hc (hany.mono (show 1 ≤ 4 by omega)) rfl, rfl⟩
  | fewDigits hu hfew =>
    rw [← hi] at hu
    have hbody := yields_scalarEscape_few
      (c := c.withResult (.text (String.singleton 'u')) (i + 2)) hc hfew
    rw [← escapeBody_u] at hbody
    exact ⟨_, yields_escapeBody_behind hc hu (by omega) hbody, rfl⟩
  | surrogate hu hds hruns hlow hhigh =>
    rw [← hi] at hu
    have hbody := yields_scalarEscape_surrogate
      (c := c.withResult (.text (String.singleton 'u')) (i + 2)) hc hruns hds hlow hhigh
    rw [← escapeBody_u] at hbody
    exact ⟨_, yields_escapeBody_behind hc hu (by omega) hbody, rfl⟩
  | @letter r w hread hu hnot =>
    rw [← hi] at hread
    have hbody := yields_escapeBody_letter
      (c := c.withResult (.text (String.singleton r)) (i + 1 + w)) hc hu hnot
    exact ⟨_, yields_escapeBody_behind hc hread (by omega) hbody, rfl⟩

/-- The failure of the part behind the backslash is that of the escape. -/
theorem yields_escape_fails (hc : c.failed = false) {d : Diagnostic}
    (hslash : c.source.readRune c.offset = some ('\\', 1)) (h : BadEscape c.source c.offset d) :
    Yields [] 7 escape c (c.withError d) := by
  have hdiscard := yields_discard hc (Source.readRune_bounds hslash).1 hslash
  obtain ⟨f, hf, hd⟩ := yields_escapeBody_fails
    (c := c.withResult .nothing (c.offset + (1 : Nat))) hc rfl h
  have hrow := Passes.cons (hdiscard.mono (show 3 ≤ 5 by omega)) hc (.nil _)
  exact yields_map_fails hc (yields_sequence_fails [] hc hrow hf hd true) rfl

theorem refuses_escape (hc : c.failed = false) (ho : 0 ≤ c.offset)
    (h : ∀ ws e ch, c.source.Runes c.offset ws e → ¬ Escape ws ch) : Refuses [] 7 escape c := by
  by_cases hslash : c.source.readRune c.offset = some ('\\', 1)
  · obtain ⟨d, hd⟩ := exists_badEscape hslash h
    exact ⟨_, yields_escape_fails hc hslash hd, rfl⟩
  · have hnone := readRune_ne (c := '\\') (by decide) hslash
    have hdiscard := (yields_discard_fails hc ho hnone).mono (show 3 ≤ 5 by omega)
    exact ⟨_, yields_map_fails hc (yields_sequence_fails _ hc (.nil c) hdiscard rfl true) rfl, rfl⟩

theorem not_escape_of_badEscape {source : Source} {i : Int} {d : Diagnostic}
    (hslash : source.readRune i = some ('\\', 1)) (h : BadEscape source i d) {ws : List Char}
    (hws : source.Runes i ws e) : ¬ Escape ws ch := by
  intro hescape
  have hfails := yields_escape_fails (c := ⟨source, i, .nothing, none⟩) rfl hslash h
  have hyields := yields_escape (c := ⟨source, i, .nothing, none⟩) rfl
    (Source.readRune_bounds hslash).1 hws hescape
  have hfailed := congrArg Cursor.failed (hyields.unique hfails)
  exact Bool.false_ne_true hfailed

end Scannerless.Grammar.EscapedString
