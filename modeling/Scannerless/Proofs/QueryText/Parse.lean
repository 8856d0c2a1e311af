import Mathlib.Data.Bool.AllAny
import Scannerless.Proofs.Folding
import Scannerless.Proofs.QueryText.Words

/-!
# Queries are parsed exactly

Main statement: the grammar of queries accepts what is written as a query and nothing else, gives
the keyword, the blanks and what the words stand for, and otherwise reports the keyword, or the
place where neither a blank nor a word starts. The assertion at the end does not look at the next
byte, so one character of one byte may be left over behind a query.
-/
namespace Scannerless

open Scannerless.Parser Grammar.Query Text Text.Utf8

namespace QueryText

/-- What a query gives: the keyword in small letters, the characters of the blanks, and the
words. -/
def results (q : QueryText) : List Value :=
  [.token "SELECT" (.text "select") ⟨0, 6, by decide, by decide⟩,
    .token "WHITE-SPACE" (singles q.blanks)
      ⟨6, 6 + (encodeChars q.blanks).length, by decide, by omega⟩,
    .tuple (contents q.words)]

/-- The offset behind the words. -/
def stop (q : QueryText) : Int :=
  (encodeChars q.front).length

/-- Why a text that does not start with the keyword is refused. -/
def noKeyword : Diagnostic :=
  ⟨"query must start with SELECT (line 1)", 0, [], none⟩

variable {c : Cursor} {cs kw rest : List Char}

/-! The keyword. -/

theorem isAscii_select : ∀ ch ∈ "select".toList, IsAscii ch :=
  List.all_iff_forall_prop.mp (by decide)

theorem toLower_select : "select".toList.map Char.toLower = "select".toList := by decide

theorem length_encode_select : (encode "select").length = 6 := by decide

theorem length_encodeChars_keyword (h : IsKeyword kw) : (encodeChars kw).length = 6 := by
  have hascii := isAscii_of_map_toLower isAscii_select (h.trans toLower_select.symm)
  have hlength := congrArg List.length h
  rw [List.length_map] at hlength
  rw [length_encodeChars_of_isAscii hascii, hlength]
  decide

theorem foldsTo_select_iff (h : c.Ahead cs) :
    Cursor.foldsTo "select" 6 (c.readBytes 6) = true ↔ StartsWithKeyword cs := by
  have hroom : ∀ entry ∈ compact, ¬ entry.2 <:+: "select".toList.map Char.toLower := by
    decide +kernel
  have hfolds := @foldsTo_iff "select" isAscii_select hroom (c.readBytes 6)
  have hread : c.readBytes 6 = (encodeChars cs).take 6 := h.readBytes_eq 6
  rw [toLower_select] at hfolds
  rw [← length_encode_select, hfolds, hread]
  constructor
  · rintro ⟨kw, hbytes, hkw⟩
    have hfront : encodeChars kw <+: encodeChars cs := hbytes ▸ List.take_prefix 6 _
    obtain ⟨rest, rfl⟩ := encodeChars_prefix_iff.mp hfront
    exact ⟨kw, rest, hkw, rfl⟩
  · rintro ⟨kw, rest, hkw, rfl⟩
    refine ⟨kw, ?_, hkw⟩
    rw [encodeChars_append, List.take_left' (length_encodeChars_keyword hkw)]

theorem yields_select (h : c.Ahead (kw ++ rest)) (hkw : IsKeyword kw) :
    Yields [] 1 (.foldedLiteral "select") c (c.withResult (.text "select") (c.behind kw)) := by
  have hfolds : Cursor.foldsTo "select" 6 (c.readBytes (6 : Nat)) = true :=
    (foldsTo_select_iff h).mpr ⟨kw, rest, hkw, rfl⟩
  have hrun : Yields [] 1 (.foldedLiteral "select") c _ := yields_leaf .foldedLiteral h.ok
  simp only [Cursor.matchFoldedLiteral, length_encode_select, hfolds, if_true] at hrun
  rwa [Cursor.behind, length_encodeChars_keyword hkw]

theorem yields_select_fails (h : c.Ahead cs) (hcs : ¬ StartsWithKeyword cs) :
    Yields [] 1 (.foldedLiteral "select") c (c.withError (.literalMismatch "select" c.offset)) := by
  have hfolds : Cursor.foldsTo "select" 6 (c.readBytes (6 : Nat)) = false :=
    Bool.eq_false_iff.mpr fun hfolds => hcs ((foldsTo_select_iff h).mp hfolds)
  have hrun : Yields [] 1 (.foldedLiteral "select") c _ := yields_leaf .foldedLiteral h.ok
  simpa only [Cursor.matchFoldedLiteral, length_encode_select, hfolds, Bool.false_eq_true, if_false]
    using hrun

theorem yields_keyword (h : c.Ahead (kw ++ rest)) (ho : c.offset = 0) (hkw : IsKeyword kw) :
    Yields [] 3 Grammar.Query.keyword c
      (c.withResult (.token "SELECT" (.text "select") ⟨0, 6, by decide, by decide⟩)
        (c.behind kw)) := by
  have hspan : Span.between c.offset (c.behind kw) = .ok ⟨0, 6, by decide, by decide⟩ := by
    rw [Cursor.behind, length_encodeChars_keyword hkw, ho]
    rfl
  have htagged : Yields [] 2 (.tagged (.foldedLiteral "select") "SELECT") c _ :=
    yields_tagged h.ok (yields_select h hkw) h.ok hspan
  exact yields_mapError h.ok htagged h.ok

theorem keywordComplaint_eq (f : Cursor) (ho : f.offset = 0) :
    keywordComplaint f = .value (.message noKeyword.message) := by
  have hread : f.source.read 0 0 = [] := by
    rw [f.source.read_eq, window, if_pos (.inr (Int.le_refl 0))]
  rw [keywordComplaint, Cursor.position, Source.positionAt, ho, hread]
  rfl

theorem yields_keyword_fails (h : c.Ahead cs) (ho : c.offset = 0) (hcs : ¬ StartsWithKeyword cs) :
    Yields [] 3 Grammar.Query.keyword c (c.withError noKeyword) := by
  have htagged : Yields [] 2 (.tagged (.foldedLiteral "select") "SELECT") c _ :=
    yields_tagged_fails h.ok (yields_select_fails h hcs) rfl
  have hcomplains := yields_mapError_fails h.ok htagged rfl (keywordComplaint_eq _ ho)
  rwa [Cursor.complain, Complaint.anchored, Cursor.offset_withError, ho] at hcomplains

/-! The end. -/

theorem ended_iff (h : Stuck rest) : Ended rest ↔ (encodeChars rest).length ≤ 1 := by
  constructor
  · rintro (rfl | ⟨ch, rfl, hsize, _⟩)
    · exact Nat.zero_le 1
    · have hlength := String.length_utf8EncodeChar ch
      rw [encodeChars_cons, encodeChars_nil, List.append_nil]
      omega
  · intro hlength
    cases rest with
    | nil => exact .inl rfl
    | cons ch cs =>
      have hpos := ch.utf8Size_pos
      rw [encodeChars_cons, List.length_append, String.length_utf8EncodeChar] at hlength
      obtain rfl : cs = [] := eq_nil_of_length_encodeChars (by omega)
      obtain ⟨hblank, hletter, _⟩ := h ch rfl
      exact .inr ⟨ch, rfl, by omega, hblank, hletter⟩

theorem matchEndOfInput_iff (h : c.Ahead rest) :
    (c.source.read (c.offset + 1) 1).isEmpty = true ↔ (encodeChars rest).length ≤ 1 := by
  have hread : c.source.read (c.offset + 1) 1 = ((encodeChars rest).drop 1).take 1 := by
    have hnext : (0 : Int) ≤ c.offset + 1 := by
      have := h.offset_nonneg
      omega
    rw [← h.bytes_eq, ← Source.bytesFrom_add h.offset_nonneg 1]
    exact Source.read_eq_take hnext 1
  rw [hread, List.isEmpty_iff_length_eq_zero, List.length_take, List.length_drop]
  omega

theorem yields_end (h : c.Ahead rest) (hrest : (encodeChars rest).length ≤ 1) :
    Yields [] 3 (.discard .endOfInput) c (c.withResult .nothing c.offset) := by
  have hrun : Yields [] 1 .endOfInput c _ := yields_leaf .endOfInput h.ok
  rw [Cursor.matchEndOfInput, if_pos ((matchEndOfInput_iff h).mpr hrest)] at hrun
  exact yields_named h.ok (yields_map h.ok hrun h.ok rfl)

theorem yields_end_fails (h : c.Ahead rest) (hrest : ¬ (encodeChars rest).length ≤ 1) :
    Yields [] 3 (.discard .endOfInput) c (c.withError (.expectedEndOfInput c.offset)) := by
  have hrun : Yields [] 1 .endOfInput c _ := yields_leaf .endOfInput h.ok
  rw [Cursor.matchEndOfInput,
    if_neg (fun hempty => hrest ((matchEndOfInput_iff h).mp hempty))] at hrun
  exact yields_named h.ok (yields_map_fails h.ok hrun rfl)

/-! Whole queries. -/

variable {blanks : List Char} {q : QueryText} {n : Nat}

theorem yields_spaces (h : c.Ahead (blanks ++ rest)) (ho : c.offset = 6)
    (hblanks : ∀ ch ∈ blanks, isBlank ch = true) (hstop : ∀ ch ∈ rest.head?, isBlank ch = false)
    (hn : c.source.size < n) :
    Yields [] (n + 2) (.tagged (.many .space) "WHITE-SPACE") c
      (c.withResult
        (.token "WHITE-SPACE" (singles blanks)
          ⟨6, 6 + (encodeChars blanks).length, by decide, by omega⟩)
        (c.behind blanks)) := by
  have hspan : Span.between c.offset (c.behind blanks) =
      .ok ⟨6, 6 + (encodeChars blanks).length, by decide, by omega⟩ := by
    rw [Cursor.behind, ho, Span.between, dif_pos (by decide), dif_pos (by omega)]
  exact yields_tagged h.ok (yields_blanks h hblanks hstop hn) h.ok hspan

theorem behind_front (ho : c.offset = 0) : c.behind q.front = q.stop := by
  rw [Cursor.behind, ho, Int.zero_add, stop]

theorem rest_ahead (h : c.Ahead q.written) (ho : c.offset = 0) (v : Value) :
    (c.withResult v q.stop).Ahead q.rest := by
  have hrest := h.move v
  rwa [behind_front ho] at hrest

/-- The keyword, the blanks and the words are passed by. -/
theorem front_passes (h : c.Ahead q.written) (ho : c.offset = 0) (hq : q.WellFormed)
    (hstuck : Stuck q.rest) (hn : c.source.size < n) :
    Passes (Yields [] (n + 11))
      [Grammar.Query.keyword, .tagged (.many .space) "WHITE-SPACE", .many word] c q.results
      (c.withResult (.tuple (contents q.words)) q.stop) := by
  rw [written, front, List.append_assoc, List.append_assoc] at h
  have hkeyword := yields_keyword h ho hq.keyword
  have hbehind := h.move (.token "SELECT" (.text "select") ⟨0, 6, by decide, by decide⟩)
  have hoffset : c.behind q.keyword = 6 := by
    rw [Cursor.behind, length_encodeChars_keyword hq.keyword, ho]
    rfl
  have hstop := hq.words.head hstuck
  have hspaces := yields_spaces hbehind hoffset hq.blanks (fun ch hch => (hstop ch hch).1) hn
  have hahead := hbehind.move (.token "WHITE-SPACE" (singles q.blanks)
    ⟨6, 6 + (encodeChars q.blanks).length, by decide, by omega⟩)
  have hwords := yields_words hq.words hstuck hahead hn
  rw [Cursor.withResult_behind] at hspaces hwords
  rw [Cursor.withResult_behind, List.append_assoc, ← front, behind_front ho] at hwords
  exact .cons (hkeyword.mono (by omega)) h.ok
    (.cons (hspaces.mono (by omega)) h.ok (.cons hwords h.ok (.nil _)))

theorem yields_query (h : c.Ahead q.written) (ho : c.offset = 0) (hq : q.WellFormed)
    (hrest : Ended q.rest) (hn : c.source.size < n) :
    Yields [] (n + 13) parser c (c.withResult (.tuple q.results) q.stop) := by
  have hfront := front_passes h ho hq hrest.stuck hn
  have hend := yields_end (rest_ahead h ho (.tuple (contents q.words)))
    ((ended_iff hrest.stuck).mp hrest)
  have hrow := hfront.append (.cons (hend.mono (by omega)) h.ok (.nil _))
  exact yields_named h.ok (yields_sequence h.ok hrow true)

theorem yields_query_fails (h : c.Ahead q.written) (ho : c.offset = 0) (hq : q.WellFormed)
    (hstuck : Stuck q.rest) (hrest : ¬ Ended q.rest) (hn : c.source.size < n) :
    Yields [] (n + 13) parser c (c.withError (.expectedEndOfInput q.stop)) := by
  have hfront := front_passes h ho hq hstuck hn
  have hend := yields_end_fails (rest_ahead h ho (.tuple (contents q.words)))
    (mt (ended_iff hstuck).mpr hrest)
  exact yields_named h.ok
    (yields_sequence_fails [] h.ok hfront (hend.mono (by omega)) rfl true)

theorem yields_query_without_keyword (h : c.Ahead cs) (ho : c.offset = 0)
    (hcs : ¬ StartsWithKeyword cs) : Yields [] 5 parser c (c.withError noKeyword) := by
  have hkeyword := yields_keyword_fails h ho hcs
  exact yields_named h.ok
    (yields_sequence_fails _ h.ok (.nil c) (hkeyword.mono (by omega)) rfl true)

/-- What a text gives that can be taken apart, by what is left over behind the words. -/
theorem exists_yields_query (h : c.Ahead cs) (hcs : cs = q.written) (ho : c.offset = 0)
    (hq : q.WellFormed) (hstuck : Stuck q.rest) (hn : c.source.size < n) :
    ∃ r, Yields [] (n + 13) parser c r ∧
      (Ended q.rest → r.error = none ∧ r.result = .tuple q.results ∧ r.offset = q.stop) ∧
      (¬ Ended q.rest → r.error = some (.expectedEndOfInput q.stop)) := by
  subst hcs
  by_cases hrest : Ended q.rest
  · have hrun := yields_query h ho hq hrest hn
    exact ⟨_, hrun, fun _ => ⟨Cursor.not_failed_iff.mp h.ok, rfl, rfl⟩, absurd hrest⟩
  · exact ⟨_, yields_query_fails h ho hq hstuck hrest hn,
      fun hended => absurd hended hrest, fun _ => rfl⟩

theorem run_query (text : String) :
    ∃ r, (Grammar.ofParser parser).run (.ofSource (.ofText text)) = .value r ∧
      (¬ StartsWithKeyword text.toList → r.error = some noKeyword) ∧
      ∀ q : QueryText, q.WellFormed → Stuck q.rest → text.toList = q.written →
        (Ended q.rest → r.error = none ∧ r.result = .tuple q.results ∧ r.offset = q.stop) ∧
        (¬ Ended q.rest → r.error = some (.expectedEndOfInput q.stop)) := by
  have hahead := Cursor.ahead_ofText text
  have hsize := Nat.lt_succ_self (Source.ofText text).size
  have hlevels : (Source.ofText text).size + 1 + 13 ≤ Grammar.levels (.ofText text) := by
    unfold Grammar.levels
    omega
  by_cases hkeyword : StartsWithKeyword text.toList
  · obtain ⟨q, hq, hstuck, hwritten⟩ := exists_parts hkeyword
    obtain ⟨r, hr, _⟩ := exists_yields_query hahead hwritten rfl hq hstuck hsize
    refine ⟨r, run_of_yields hr hlevels, absurd hkeyword, fun q' hq' hstuck' hwritten' => ?_⟩
    -- A run gives one cursor only, however the text is taken apart.
    obtain ⟨r', hr', hparts⟩ := exists_yields_query hahead hwritten' rfl hq' hstuck' hsize
    obtain rfl := hr.unique hr'
    exact hparts
  · have hrun := yields_query_without_keyword hahead rfl hkeyword
    refine ⟨_, run_of_yields hrun (Nat.le_trans (by omega) hlevels), fun _ => rfl, ?_⟩
    intro q hq _ hwritten
    exact absurd (hwritten ▸ hq.startsWithKeyword) hkeyword

/-- The grammar of queries accepts what is written as a query and nothing else, with at most one
character of one byte left over. It gives the parts of the query, however the text is taken apart.
Every text with the keyword can be taken apart up to where neither a blank nor a word starts, and if
more is left over there, the end is missed there. -/
theorem queries_exact (text : String) :
    ∃ r, (Grammar.ofParser parser).run (.ofSource (.ofText text)) = .value r ∧
      (r.failed = false ↔
        ∃ q : QueryText, q.WellFormed ∧ Ended q.rest ∧ text.toList = q.written) ∧
      (r.error = some noKeyword ↔ ¬ StartsWithKeyword text.toList) ∧
      (StartsWithKeyword text.toList →
        ∃ q : QueryText, q.WellFormed ∧ Stuck q.rest ∧ text.toList = q.written) ∧
      ∀ q : QueryText, q.WellFormed → Stuck q.rest → text.toList = q.written →
        (Ended q.rest → r.error = none ∧ r.result = .tuple q.results ∧ r.offset = q.stop) ∧
        (¬ Ended q.rest → r.error = some (.expectedEndOfInput q.stop)) := by
  obtain ⟨r, hrun, hwithout, hparts⟩ := run_query text
  refine ⟨r, hrun, ?succeeds, ?without, exists_parts, hparts⟩
  case succeeds =>
    constructor
    · intro hr
      have hnone := Cursor.not_failed_iff.mp hr
      by_cases hkeyword : StartsWithKeyword text.toList
      · obtain ⟨q, hq, hstuck, hwritten⟩ := exists_parts hkeyword
        by_cases hrest : Ended q.rest
        · exact ⟨q, hq, hrest, hwritten⟩
        · have hmissed := (hparts q hq hstuck hwritten).2 hrest
          rw [hnone] at hmissed
          cases hmissed
      · have hrefused := hwithout hkeyword
        rw [hnone] at hrefused
        cases hrefused
    · rintro ⟨q, hq, hrest, hwritten⟩
      exact Cursor.not_failed_iff.mpr ((hparts q hq hrest.stuck hwritten).1 hrest).1
  case without =>
    refine ⟨fun hrefused hkeyword => ?_, hwithout⟩
    obtain ⟨q, hq, hstuck, hwritten⟩ := exists_parts hkeyword
    obtain ⟨hended, hmissed⟩ := hparts q hq hstuck hwritten
    by_cases hrest : Ended q.rest
    · rw [(hended hrest).1] at hrefused
      cases hrefused
    · rw [hmissed hrest] at hrefused
      exact Option.some_ne_none _ (congrArg Diagnostic.code (Option.some.inj hrefused))

end QueryText

end Scannerless
