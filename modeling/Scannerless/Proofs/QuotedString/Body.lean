import Scannerless.Proofs.QuotedString.Escape

/-!
# Quoted strings are parsed as they are written

The items between the quotes are taken one by one until there is none at the cursor, and a quote
begins no item. So the parser stops at the closing quote of the grammar and nowhere else. Where it
stops without one it fails with the mistake that stands there, although the repetition has dropped
the failure of the item.
-/
namespace Scannerless.Grammar.EscapedString

open Scannerless.Parser QuotedString Text.Utf8

variable {c : Cursor} {ch : Char} {w : Nat} {e : Int} {ws cs : List Char}

/-- The parser of one item between the quotes. -/
def item : Parser := .choice [escape, plain]

theorem yields_item (hc : c.failed = false) (ho : 0 ≤ c.offset) (h : c.source.Runes c.offset ws e)
    (hitem : Item ws ch) :
    Yields [] 8 item c (c.withResult (.text (String.singleton ch)) e) := by
  cases hitem with
  | plain hquote hbackslash =>
    cases h with
    | @cons _ _ _ w _ hread hrest =>
      cases hrest
      have hescape : Refuses [] 7 escape c := by
        apply refuses_escape hc ho
        intro ws e ch' hws hescape
        obtain ⟨x, ds, rfl, _⟩ := hescape.eq_cons
        cases hws with
        | cons hslash _ =>
          rw [hread] at hslash
          exact hbackslash (Prod.mk.inj (Option.some.inj hslash)).1
      have haccepts : (ch != '"' && ch != '\\') = true := by simp [hquote, hbackslash]
      have hplain : Yields [] 1 plain c
          (c.withResult (.text (String.singleton ch)) (c.offset + w)) :=
        yields_rune none "string character" hc hread haccepts
      refine yields_choice [escape] [] hc (fun q hq => ?_) (hplain.mono (show 1 ≤ 7 by omega)) hc
      obtain rfl := List.mem_singleton.mp hq
      exact hescape
  | escape hescape =>
    exact yields_choice [] [plain] hc (fun q hq => by cases hq)
      (yields_escape hc ho h hescape) hc

theorem refuses_item (hc : c.failed = false) (ho : 0 ≤ c.offset)
    (h : ∀ ws e ch, c.source.Runes c.offset ws e → ¬ Item ws ch) : Refuses [] 8 item c := by
  apply refuses_choice hc
  intro q hq
  simp only [List.mem_cons, List.not_mem_nil, or_false] at hq
  rcases hq with rfl | rfl
  · exact refuses_escape hc ho fun ws e ch hws hescape => h ws e ch hws (.escape hescape)
  · refine Refuses.mono (refuses_rune hc fun ch w hread => ?_) (show 1 ≤ 7 by omega)
    by_cases hquote : ch = '"'
    · simp [hquote]
    · by_cases hbackslash : ch = '\\'
      · simp [hbackslash]
      · exact absurd (.plain hquote hbackslash) (h [ch] _ ch (Source.Runes.single hread))

theorem not_item_of_badEscape {source : Source} {i : Int} {d : Diagnostic}
    (hslash : source.readRune i = some ('\\', 1)) (h : BadEscape source i d) (ws : List Char)
    (e : Int) (ch : Char) (hws : source.Runes i ws e) : ¬ Item ws ch := by
  intro hitem
  cases hitem with
  | plain _ hbackslash =>
    cases hws with
    | cons hread _ =>
      rw [hslash] at hread
      exact hbackslash (Prod.mk.inj (Option.some.inj hread)).1.symm
  | escape hescape => exact not_escape_of_badEscape hslash h hws hescape

theorem items_pass (h : c.source.Runes c.offset ws e) (hitems : Items ws cs) (hc : c.failed = false)
    (ho : 0 ≤ c.offset) :
    ∃ v, Passes (Yields [] 8) (List.replicate cs.length item) c
      (cs.map fun ch => .text (String.singleton ch)) (c.withResult v e) := by
  induction hitems generalizing c with
  | nil =>
    cases h
    exact ⟨c.result, .nil c⟩
  | @cons ws others ch cs hitem _ ih =>
    obtain ⟨m, hws, hothers⟩ := h.split
    have hle := hws.bounds.1
    obtain ⟨v, hpasses⟩ := @ih (c.withResult (.text (String.singleton ch)) m) hothers hc
      (by rw [Cursor.offset_withResult]; omega)
    exact ⟨v, .cons (yields_item hc ho hws hitem) hc hpasses⟩

/-- Items until there is no more, by induction on the bytes that are left. -/
theorem exists_items (source : Source) (o : Int) :
    ∃ ws cs e, source.Runes o ws e ∧ Items ws cs ∧
      ∀ ws' e' ch, source.Runes e ws' e' → ¬ Item ws' ch := by
  obtain ⟨left, hleft⟩ : ∃ left : Nat, source.size - o ≤ left := ⟨(source.size - o).toNat, by omega⟩
  induction left generalizing o with
  | zero =>
    refine ⟨[], [], o, .nil o, .nil, fun ws' e' ch hws hitem => ?_⟩
    obtain ⟨x, ds, rfl, _⟩ := hitem.eq_cons
    obtain ⟨hle, hinside⟩ := hws.bounds
    have := hinside (List.cons_ne_nil x ds)
    rw [List.length_cons] at hle
    omega
  | succ left ih =>
    by_cases hitem : ∃ ws e ch, source.Runes o ws e ∧ Item ws ch
    · obtain ⟨ws, m, ch, hws, hitem⟩ := hitem
      obtain ⟨x, ds, rfl, _⟩ := hitem.eq_cons
      have hle := hws.bounds.1
      rw [List.length_cons] at hle
      obtain ⟨others, cs, e, hothers, hitems, hstop⟩ := ih m (by omega)
      exact ⟨x :: ds ++ others, ch :: cs, e, hws.append hothers, .cons hitem hitems, hstop⟩
    · exact ⟨[], [], o, .nil o, .nil, fun ws' e' ch hws h => hitem ⟨ws', e', ch, hws, h⟩⟩

/-- The levels that are enough for the items of a source. -/
def bodyLevels (source : Source) : Nat := source.size + 9

theorem yields_body (hc : c.failed = false) (ho : 0 ≤ c.offset) (h : c.source.Runes c.offset ws e)
    (hitems : Items ws cs)
    (hstop : ∀ ws' e' ch, c.source.Runes e ws' e' → ¬ Item ws' ch) :
    Yields [] (bodyLevels c.source + 2) (.map (.many item) fun results => .ofExcept results.join) c
      (c.withResult (.text (String.ofList cs)) e) := by
  obtain ⟨v, hpasses⟩ := items_pass h hitems hc ho
  have hlevels : 8 ≤ bodyLevels c.source := by
    unfold bodyLevels
    omega
  have hrow : Passes (Yields [] (bodyLevels c.source)) (List.replicate cs.length item) c
      (cs.map fun ch => .text (String.singleton ch)) (c.withResult v e) :=
    hpasses.mono fun q c' r hq => hq.mono hlevels
  have hle := h.bounds.1
  have hend : Refuses [] 8 item (c.withResult v e) := by
    refine refuses_item hc ?_ hstop
    rw [Cursor.offset_withResult]
    omega
  have hrounds : cs.length < bodyLevels c.source := by
    have hitem := hitems.length_le
    have hrune := h.length_le
    unfold bodyLevels
    omega
  have hmany := yields_many hc hrow (hend.mono hlevels) hrounds
  refine yields_map hc hmany hc ?_
  rw [Cursor.result_withResult, Value.join_singletons, Outcome.ofExcept_ok]

/-- Where the closing quote is missing, the complaint is the mistake that stands there: the escape
fails once more, and in the same way. -/
theorem closingComplaint_eq {f : Cursor} {d : Diagnostic} (ho : 0 ≤ f.offset)
    (h : BrokenOff f.source f.offset d) : closingComplaint f = .value (.record d) := by
  have hbytes : f.fresh.readBytes 1 = encode backslashText ↔
      f.source.readRune f.offset = some ('\\', 1) := by
    rw [encode_backslash]
    exact Source.read_eq_utf8EncodeChar_iff (c := '\\') ho (by decide)
  rw [closingComplaint]
  cases h with
  | escape hslash hd =>
    have hescape := yields_escape_fails (c := f.fresh) rfl hslash hd
    rw [if_pos (hbytes.mpr hslash), run_of_yields hescape (by unfold levels; omega)]
    rfl
  | unterminated hslash =>
    rw [if_neg (mt hbytes.mp hslash)]
    rfl

/-! The string with its quotes. -/

theorem encode_quote : encode quoteText = String.utf8EncodeChar '"' := by decide

/-- No item begins with the quote that closes the string. -/
theorem not_item_of_quote {source : Source} {o : Int} (h : source.readRune o = some ('"', w))
    (ws : List Char) (e : Int) (ch : Char) (hws : source.Runes o ws e) : ¬ Item ws ch := by
  intro hitem
  obtain ⟨x, ds, rfl, hx⟩ := hitem.eq_cons
  cases hws with
  | cons hread _ =>
    rw [h] at hread
    exact hx (Prod.mk.inj (Option.some.inj hread)).1.symm

theorem yields_string (hc : c.failed = false) (ho : 0 ≤ c.offset) {q : List Char} {s : String}
    (h : c.source.Runes c.offset q e) (hquotes : Quotes q s) :
    Yields [] (bodyLevels c.source + 6) parser c (c.withResult (.text s) e) := by
  obtain ⟨body, rfl, hitems⟩ := hquotes
  cases h with
  | @cons _ _ _ w _ hopen hrest =>
    obtain ⟨m, hbody, hclose⟩ := hrest.split
    have hm := hbody.bounds.1
    cases hclose with
    | @cons _ _ _ w' _ hclose hnil =>
      cases hnil
      have hleft : Yields [] 1 (.literal quoteText) c _ :=
        yields_literal hc ho encode_quote (by decide) hopen
      have hcontent := yields_body (c := c.withResult (.text quoteText) (c.offset + w)) hc
        (show 0 ≤ c.offset + w by omega) hbody hitems (not_item_of_quote hclose)
      rw [String.ofList_toList] at hcontent
      have hmatch : Yields [] 1 (.literal quoteText) (c.withResult (.text s) m) _ :=
        yields_literal hc (show 0 ≤ m by omega) encode_quote (by decide) hclose
      have hright : Yields [] 2 (.mapError (.literal quoteText) closingComplaint)
          (c.withResult (.text s) m) _ := yields_mapError hc hmatch hc
      have hrow := Passes.cons (hleft.mono (by omega)) hc
        (.cons hcontent hc (.cons (hright.mono (by omega)) hc (.nil _)))
      exact yields_named hc (yields_named hc (yields_map hc (yields_sequence hc hrow false) hc rfl))

/-- The failure of the sequence is the failure of the whole. -/
theorem parser_fails (hc : c.failed = false) {n : Nat} {d : Diagnostic}
    (h : Yields [] n
      (.sequence [.literal quoteText,
        .map (.many item) fun results => .ofExcept results.join,
        .mapError (.literal quoteText) closingComplaint] false) c (c.withError d)) :
    Yields [] (n + 3) parser c (c.withError d) :=
  yields_named hc (yields_named hc (yields_map_fails hc h rfl))

theorem yields_string_unopened (hc : c.failed = false) (ho : 0 ≤ c.offset)
    (h : ∀ w, c.source.readRune c.offset ≠ some ('"', w)) :
    Yields [] 5 parser c (c.withError (.literalMismatch quoteText c.offset)) := by
  have hleft : Yields [] 1 (.literal quoteText) c _ :=
    yields_literal_fails hc ho encode_quote (by decide) h
  exact parser_fails hc (yields_sequence_fails _ hc (.nil c) hleft rfl false)

theorem yields_string_brokenOff (hc : c.failed = false) {d : Diagnostic}
    (hopen : c.source.readRune c.offset = some ('"', w))
    (hbody : c.source.Runes (c.offset + w) ws e) (hitems : Items ws cs)
    (hstop : ∀ ws' e' ch, c.source.Runes e ws' e' → ¬ Item ws' ch)
    (hclose : ∀ w', c.source.readRune e ≠ some ('"', w')) (hd : BrokenOff c.source e d) :
    Yields [] (bodyLevels c.source + 6) parser c (c.withError d) := by
  have ho := (Source.readRune_bounds hopen).1
  have he := hbody.bounds.1
  have hleft : Yields [] 1 (.literal quoteText) c _ :=
    yields_literal hc ho encode_quote (by decide) hopen
  have hcontent := yields_body (c := c.withResult (.text quoteText) (c.offset + w)) hc
    (show 0 ≤ c.offset + w by omega) hbody hitems hstop
  have hmissing : Yields [] 1 (.literal quoteText) (c.withResult (.text (String.ofList cs)) e) _ :=
    yields_literal_fails hc (show 0 ≤ e by omega) encode_quote (by decide) hclose
  have hcomplaint := closingComplaint_eq
    (f := (c.withResult (.text (String.ofList cs)) e).withError (.literalMismatch quoteText e))
    (show 0 ≤ e by omega) hd
  have hright : Yields [] 2 (.mapError (.literal quoteText) closingComplaint)
      (c.withResult (.text (String.ofList cs)) e) _ :=
        yields_mapError_fails hc hmissing rfl hcomplaint
  have hrow := Passes.cons (hleft.mono (by omega)) hc (.cons hcontent hc (.nil _))
  exact parser_fails hc (yields_sequence_fails [] hc hrow (hright.mono (by omega)) rfl false)

theorem string_fails (hc : c.failed = false) (ho : 0 ≤ c.offset)
    (h : ∀ q e s, c.source.Runes c.offset q e → ¬ Quotes q s) :
    ∃ d, Yields [] (bodyLevels c.source + 6) parser c (c.withError d) ∧ 0 ≤ d.offset := by
  by_cases hopen : ∃ w, c.source.readRune c.offset = some ('"', w)
  · obtain ⟨w, hopen⟩ := hopen
    obtain ⟨body, cs, m, hbody, hitems, hstop⟩ := exists_items c.source (c.offset + w)
    have hclose : ∀ w', c.source.readRune m ≠ some ('"', w') := by
      intro w' hclose
      have hq := Source.Runes.cons hopen (hbody.append (.single hclose))
      exact h _ _ (String.ofList cs) hq ⟨body, rfl, by rwa [String.toList_ofList]⟩
    obtain ⟨d, hd⟩ := exists_brokenOff hstop
    have hm := hbody.bounds.1
    have hoffset := hd.le_offset
    exact ⟨d, yields_string_brokenOff hc hopen hbody hitems hstop hclose hd, by omega⟩
  · have hunopened := yields_string_unopened hc ho fun w hw => hopen ⟨w, hw⟩
    exact ⟨_, hunopened.mono (by omega), ho⟩

end Scannerless.Grammar.EscapedString
