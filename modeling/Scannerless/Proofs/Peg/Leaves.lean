import Scannerless.Proofs.Peg.Reading
import Scannerless.Proofs.Progress

/-!
# Matchers do what their terminals say

Each matcher at the leaves of a parser ends where the terminal that it is read as ends, and fails
where the terminal fails. Runs of runes are stars of a terminal, and counted runes are copies of
one.
-/
namespace Scannerless.Parser

open Peg

variable {definitions : Definitions} {source : Source} {accepts : Char → Outcome Bool}
  {c r : Cursor} {complaint : Option Complaint} {what : String}

theorem verdict_refuse (c : Cursor) (complaint : Option Complaint) (usual : Diagnostic) :
    (c.refuse complaint usual).verdict = none := by
  cases complaint <;> exact Cursor.verdict_of_failed rfl

theorem ends_rune_of_accepts {o : Int} {d : Char} {width : Nat}
    (hread : source.readRune o = some (d, width)) (haccepts : accepts d = .value true) :
    Terminal.ends source (.rune fun d => (accepts d).holds) o = some (o + width) :=
  Terminal.ends_rune_eq_some_iff.mpr ⟨d, width, hread, congrArg Outcome.holds haccepts, rfl⟩

theorem ends_rune_of_refuses {o : Int}
    (h : ∀ d width, source.readRune o = some (d, width) → accepts d = .value false) :
    Terminal.ends source (.rune fun d => (accepts d).holds) o = none :=
  Terminal.ends_rune_eq_none fun d width hread => congrArg Outcome.holds (h d width hread)

theorem verdict_matchRune (hc : c.failed = false)
    (h : c.matchRune accepts complaint what = .value r) :
    r.verdict = Terminal.ends c.source (.rune fun d => (accepts d).holds) c.offset := by
  rcases Cursor.matchRune_eq_value_iff.mp h with ⟨d, width, hread, haccepts, rfl⟩ | ⟨hrefused, rfl⟩
  · rw [ends_rune_of_accepts hread haccepts, Cursor.verdict_withResult hc]
  · rw [ends_rune_of_refuses hrefused, verdict_refuse]

/-- A run of accepted runes that adds none stands where the terminal fails. One that adds some has
matched the terminal as often as it goes, if the steps are enough for the bytes that are left. -/
theorem runesWhileFrom_derives (definitions : Definitions) {steps : Nat} {o stop : Int}
    {runes found : List Char} (hsteps : 0 ≤ o → (source.size : Int) ≤ o + steps)
    (h : source.runesWhileFrom accepts steps o runes = .value (found, stop)) :
    (found = runes.reverse ∧ stop = o ∧
      DerivesOn definitions source (.terminal (.rune fun d => (accepts d).holds)) o none) ∨
    (runes.length < found.length ∧
      DerivesOn definitions source (.plus (.terminal (.rune fun d => (accepts d).holds))) o
        (some stop)) := by
  induction steps generalizing o runes with
  | zero =>
    obtain ⟨rfl, rfl⟩ := Prod.mk.inj (Outcome.value.inj h)
    have hend : Terminal.ends source (.rune fun d => (accepts d).holds) o = none := by
      refine ends_rune_of_refuses fun d width hread => ?_
      have hrune := Source.readRune_bounds hread
      omega
    exact .inl ⟨rfl, rfl, hend ▸ .terminal _ _⟩
  | succ steps ih =>
    rcases Source.runesWhileFrom_succ_eq_value_iff.mp h with
      ⟨d, width, hread, haccepts, h⟩ | ⟨hrefused, h⟩
    · have hrune := Source.readRune_bounds hread
      have hfirst : DerivesOn definitions source (.terminal (.rune fun d => (accepts d).holds)) o
          (some (o + width)) := ends_rune_of_accepts hread haccepts ▸ .terminal _ _
      right
      rcases ih (by omega) h with ⟨rfl, rfl, hstops⟩ | ⟨hlength, hgoes⟩
      · exact ⟨by simp, .seq hfirst (.starStops hstops)⟩
      · rw [List.length_cons] at hlength
        refine ⟨by omega, .seq hfirst ?_⟩
        cases hgoes with
        | seq he hrest => exact .starGoes he hrest
    · obtain ⟨rfl, rfl⟩ := Prod.mk.inj h
      exact .inl ⟨rfl, rfl, ends_rune_of_refuses hrefused ▸ .terminal _ _⟩

theorem matchRunes_derives (hc : c.failed = false)
    (h : c.matchRunes accepts complaint what = .value r) :
    DerivesOn definitions c.source (.plus (.terminal (.rune fun d => (accepts d).holds))) c.offset
      r.verdict := by
  obtain ⟨runes, stop, hwhile, rfl⟩ := Cursor.matchRunes_eq_value_iff.mp h
  rcases runesWhileFrom_derives definitions (by omega) hwhile with
    ⟨rfl, rfl, hstops⟩ | ⟨hlength, hplus⟩
  · rw [List.reverse_nil, if_pos rfl, verdict_refuse]
    exact .seqFails hstops
  · rw [if_neg (List.ne_nil_of_length_pos hlength), Cursor.verdict_withResult hc]
    exact hplus

theorem readRunesFrom_derives (definitions : Definitions) (source : Source) (count : Nat) (o : Int)
    (runes : List Char) :
    DerivesOn definitions source (.copies count (.terminal (.rune fun _ => true))) o
      ((source.readRunesFrom count o runes).map Prod.snd) := by
  induction count generalizing o runes with
  | zero => exact .empty o
  | succ count ih =>
    have hfirst : DerivesOn definitions source (.terminal (.rune fun _ => true)) o
        (Terminal.ends source (.rune fun _ => true) o) := .terminal _ _
    rw [Source.readRunesFrom]
    cases hread : source.readRune o with
    | none =>
      have hend : Terminal.ends source (.rune fun _ => true) o = none := by
        simp [Terminal.ends, hread]
      rw [hend] at hfirst
      exact .seqFails hfirst
    | some rune =>
      have hend : Terminal.ends source (.rune fun _ => true) o = some (o + rune.2) :=
        Terminal.ends_rune_eq_some_iff.mpr ⟨rune.1, rune.2, hread, rfl, rfl⟩
      rw [hend] at hfirst
      exact .seq hfirst (ih _ _)

theorem verdict_matchRuneCount (hc : c.failed = false) (count : Nat) :
    (c.matchRuneCount count).verdict = (c.source.readRunesFrom count c.offset []).map Prod.snd := by
  rw [Cursor.matchRuneCount_eq, Source.readRunes]
  cases c.source.readRunesFrom count c.offset [] with
  | none => exact Cursor.verdict_of_failed rfl
  | some runes => exact Cursor.verdict_of_not_failed hc

theorem matchLiteral_eq (c : Cursor) (text : String) :
    c.matchLiteral text =
      if c.source.read c.offset (Text.Utf8.encode text).length = Text.Utf8.encode text then
        c.withResult (.text text) (c.offset + (Text.Utf8.encode text).length)
      else c.withError (.literalMismatch text c.offset) := rfl

theorem verdict_matchLiteral (hc : c.failed = false) (text : String) :
    (c.matchLiteral text).verdict = Terminal.ends c.source (.literal text) c.offset := by
  simp only [matchLiteral_eq, Terminal.ends]
  split
  · exact Cursor.verdict_of_not_failed hc
  · exact Cursor.verdict_of_failed rfl

theorem matchFoldedLiteral_eq (c : Cursor) (text : String) :
    c.matchFoldedLiteral text =
      if Cursor.foldsTo text (Text.Utf8.encode text).length
          (c.source.read c.offset (Text.Utf8.encode text).length) then
        c.withResult (.text text) (c.offset + (Text.Utf8.encode text).length)
      else c.withError (.literalMismatch text c.offset) := rfl

theorem verdict_matchFoldedLiteral (hc : c.failed = false) (text : String) :
    (c.matchFoldedLiteral text).verdict =
      Terminal.ends c.source (.foldedLiteral text) c.offset := by
  simp only [matchFoldedLiteral_eq, Terminal.ends]
  split
  · exact Cursor.verdict_of_not_failed hc
  · exact Cursor.verdict_of_failed rfl

theorem verdict_matchStartOfInput (hc : c.failed = false) :
    c.matchStartOfInput.verdict = Terminal.ends c.source .startOfInput c.offset := by
  simp only [Cursor.matchStartOfInput, Terminal.ends]
  split
  · exact Cursor.verdict_of_not_failed hc
  · exact Cursor.verdict_of_failed rfl

theorem verdict_matchEndOfInput (hc : c.failed = false) :
    c.matchEndOfInput.verdict = Terminal.ends c.source .endOfInput c.offset := by
  simp only [Cursor.matchEndOfInput, Terminal.ends, List.isEmpty_iff]
  split
  · exact Cursor.verdict_of_not_failed hc
  · exact Cursor.verdict_of_failed rfl

theorem verdict_matchStartOfLine (hc : c.failed = false) :
    c.matchStartOfLine.verdict = Terminal.ends c.source .startOfLine c.offset := by
  have hself := Cursor.verdict_of_not_failed hc
  by_cases hstart : c.offset = 0
  · simp [Cursor.matchStartOfLine, Terminal.ends, hstart, hself]
  · by_cases hline : c.source.read (c.offset - 1) 1 = [newline]
    · simp [Cursor.matchStartOfLine, Terminal.ends, hstart, hline, hself]
    · simp [Cursor.matchStartOfLine, Terminal.ends, hstart, hline, Cursor.verdict]

/-- A leaf does what its reading says. -/
theorem Acts.derives {p : Parser} (h : Acts p c r) (hc : c.failed = false) :
    DerivesOn definitions c.source (.nonterminal p) c.offset r.verdict := by
  -- A leaf with one terminal ends where the terminal does.
  have single : ∀ t, reading definitions p = some (.terminal t) →
      r.verdict = Terminal.ends c.source t c.offset →
      DerivesOn definitions c.source (.nonterminal p) c.offset r.verdict := by
    intro t hrule hverdict
    rw [hverdict]
    exact .nonterminal hrule (.terminal t c.offset)
  cases h with
  | rune h => exact single _ rfl (verdict_matchRune hc h)
  | runes h => exact .nonterminal rfl (matchRunes_derives hc h)
  | @runeCount count =>
    have hcount := readRunesFrom_derives definitions c.source count c.offset []
    rw [← verdict_matchRuneCount hc] at hcount
    exact .nonterminal rfl hcount
  | literal => exact single _ rfl (verdict_matchLiteral hc _)
  | foldedLiteral => exact single _ rfl (verdict_matchFoldedLiteral hc _)
  | succeed =>
    rw [Cursor.verdict_withResult hc]
    exact .nonterminal rfl (.empty c.offset)
  | fail => exact .nonterminal rfl (.fail c.offset)
  | startOfInput => exact single _ rfl (verdict_matchStartOfInput hc)
  | endOfInput => exact single _ rfl (verdict_matchEndOfInput hc)
  | startOfLine => exact single _ rfl (verdict_matchStartOfLine hc)

end Scannerless.Parser
