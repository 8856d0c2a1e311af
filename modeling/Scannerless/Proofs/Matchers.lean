import Scannerless.Parser.Build
import Scannerless.Proofs.Runes
import Scannerless.Proofs.Yields

/-!
# What matchers yield at the runes of a source

A matcher of one rune goes by the rune that is read, and the literal of one rune goes by it too,
although it compares bytes. Accepted runes one after the other are a row of successes.
-/
namespace Scannerless

open Text.Utf8

namespace Cursor

variable {c : Cursor} {text : String}

/-- A matcher that refuses differs from its cursor in the failure only. -/
theorem refuse_eq (c : Cursor) (complaint : Option Complaint) (usual : Diagnostic) :
    ∃ d, c.refuse complaint usual = c.withError d := by
  cases complaint with
  | none => exact ⟨usual, rfl⟩
  | some complaint => exact ⟨complaint.moved c.offset, rfl⟩

theorem failed_refuse (c : Cursor) (complaint : Option Complaint) (usual : Diagnostic) :
    (c.refuse complaint usual).failed = true := by
  obtain ⟨d, hd⟩ := c.refuse_eq complaint usual
  rw [hd, failed_withError]

theorem readBytes_eq_iff (ho : 0 ≤ c.offset) (bytes : List UInt8) :
    c.readBytes bytes.length = bytes ↔ bytes <+: c.source.bytesFrom c.offset := by
  rw [readBytes, Source.read_eq_take ho, List.prefix_iff_eq_take, eq_comm]

theorem matchLiteral_failed_iff (hc : c.failed = false) :
    (c.matchLiteral text).failed = false ↔ c.readBytes (encode text).length = encode text := by
  rw [matchLiteral]
  split
  · rename_i hbytes
    exact iff_of_true hc hbytes
  · rename_i hbytes
    exact iff_of_false nofun hbytes

theorem matchFoldedLiteral_failed_iff (hc : c.failed = false) :
    (c.matchFoldedLiteral text).failed = false ↔
      foldsTo text (encode text).length (c.readBytes (encode text).length) = true := by
  rw [matchFoldedLiteral]
  split
  · rename_i hfolds
    exact iff_of_true hc hfolds
  · rename_i hfolds
    exact iff_of_false nofun hfolds

/-- A run of accepted runes, as far as it goes, is what a matcher of runes gives. -/
theorem matchRunes_of_runes (complaint : Option Complaint) (what : String) {cs : List Char}
    {e : Int} {accepts : Char → Bool} (h : c.source.Runes c.offset cs e) (hne : cs ≠ [])
    (haccepts : ∀ ch ∈ cs, accepts ch = true)
    (hstop : ∀ ch w, c.source.readRune e = some (ch, w) → accepts ch = false) :
    c.matchRunes accepts complaint what =
      .value (c.withResult (.text (String.ofList cs)) e) := by
  have hwhile : c.source.runesWhile accepts c.offset = .value (cs, e) :=
    Source.runesWhile_of_runes h (fun ch hch => congrArg Outcome.value (haccepts ch hch))
      fun ch w hread => congrArg Outcome.value (hstop ch w hread)
  exact matchRunes_eq_value_iff.mpr ⟨cs, e, hwhile, (if_neg hne).symm⟩

theorem matchRunes_of_refused (complaint : Option Complaint) (what : String)
    {accepts : Char → Bool}
    (hstop : ∀ ch w, c.source.readRune c.offset = some (ch, w) → accepts ch = false) :
    c.matchRunes accepts complaint what =
      .value (c.refuse complaint (.runesMismatch c.offset what)) := by
  have hwhile : c.source.runesWhile accepts c.offset = .value ([], c.offset) :=
    Source.runesWhile_of_runes (.nil c.offset) nofun
      fun ch w hread => congrArg Outcome.value (hstop ch w hread)
  exact matchRunes_eq_value_iff.mpr ⟨[], c.offset, hwhile, rfl⟩

theorem matchRuneCount_of_runes {count : Nat} {cs : List Char} {e : Int}
    (h : c.source.Runes c.offset cs e) (hlength : cs.length = count) :
    c.matchRuneCount count = c.withResult (.text (String.ofList cs)) e := by
  rw [matchRuneCount_eq, Source.readRunes_eq_some_iff.mpr ⟨h, hlength⟩]

theorem matchRuneCount_of_few {count : Nat}
    (h : ∀ cs e, c.source.Runes c.offset cs e → cs.length ≠ count) :
    c.matchRuneCount count = c.withError (.runeCountMismatch count c.offset) := by
  have hnone : c.source.readRunes count c.offset = none := by
    refine Option.eq_none_iff_forall_not_mem.mpr fun runes hread => ?_
    obtain ⟨hruns, hlength⟩ := Source.readRunes_eq_some_iff.mp hread
    exact h _ _ hruns hlength
  rw [matchRuneCount_eq, hnone]

theorem runes_of_matchRuneCount {count : Nat} (h : (c.matchRuneCount count).failed = false) :
    ∃ cs e, c.source.Runes c.offset cs e ∧
      c.matchRuneCount count = c.withResult (.text (String.ofList cs)) e := by
  by_cases hsome : ∃ cs e, c.source.Runes c.offset cs e ∧ cs.length = count
  · obtain ⟨cs, e, hruns, hlength⟩ := hsome
    exact ⟨cs, e, hruns, matchRuneCount_of_runes hruns hlength⟩
  · rw [matchRuneCount_of_few fun cs e hruns hlength => hsome ⟨cs, e, hruns, hlength⟩] at h
    cases h

end Cursor

namespace Parser

variable {definitions : Definitions} {c : Cursor} {ch : Char} {w : Nat} {e : Int}
  {accepts : Char → Bool} {complaint : Option Complaint} {what text : String}

/-- What a repetition of any rune gives for the runes that it has read. -/
def runeTexts (cs : List Char) : Value :=
  .tuple (cs.map fun ch => .text (String.singleton ch))

theorem yields_rune (complaint : Option Complaint) (what : String) (hc : c.failed = false)
    (hread : c.source.readRune c.offset = some (ch, w)) (haccepts : accepts ch = true) :
    Yields definitions 1 (.rune accepts complaint what) c
      (c.withResult (.text (String.singleton ch)) (c.offset + w)) := by
  have hanswer : Outcome.value (accepts ch) = .value true := congrArg Outcome.value haccepts
  refine yields_leaf (.rune ?_) hc
  exact Cursor.matchRune_eq_value_iff.mpr (.inl ⟨ch, w, hread, hanswer, rfl⟩)

theorem yields_rune_refused (complaint : Option Complaint) (what : String) (hc : c.failed = false)
    (hread : ∀ ch w, c.source.readRune c.offset = some (ch, w) → accepts ch = false) :
    Yields definitions 1 (.rune accepts complaint what) c
      (c.refuse complaint (.runeMismatch c.offset what)) := by
  refine yields_leaf (.rune ?_) hc
  refine Cursor.matchRune_eq_value_iff.mpr (.inr ⟨fun ch w hrune => ?_, rfl⟩)
  exact congrArg Outcome.value (hread ch w hrune)

theorem yields_rune_end (what : String) (hc : c.failed = false)
    (hread : c.source.readRune c.offset = none) :
    Yields definitions 1 (.rune accepts none what) c (c.withError (.runeMismatch c.offset what)) :=
  yields_rune_refused none what hc (by simp [hread])

theorem refuses_rune (hc : c.failed = false)
    (hread : ∀ ch w, c.source.readRune c.offset = some (ch, w) → accepts ch = false) :
    Refuses definitions 1 (.rune accepts complaint what) c :=
  ⟨_, yields_rune_refused complaint what hc hread, Cursor.failed_refuse c complaint _⟩

theorem yields_anyRune (hc : c.failed = false)
    (hread : c.source.readRune c.offset = some (ch, w)) :
    Yields definitions 1 anyRune c (c.withResult (.text (String.singleton ch)) (c.offset + w)) :=
  yields_rune none "any rune" hc hread rfl

theorem refuses_anyRune (hc : c.failed = false) (hread : c.source.readRune c.offset = none) :
    Refuses definitions 1 anyRune c := by
  apply refuses_rune hc
  intro ch w hrune
  rw [hread] at hrune
  cases hrune

theorem yields_literal_of_bytes (hc : c.failed = false)
    (hbytes : c.readBytes (encode text).length = encode text) :
    Yields definitions 1 (.literal text) c
      (c.withResult (.text text) (c.offset + (encode text).length)) := by
  have h : Yields definitions 1 (.literal text) c _ := yields_leaf .literal hc
  rwa [Cursor.matchLiteral, if_pos hbytes] at h

theorem yields_literal_of_not_bytes (hc : c.failed = false)
    (hbytes : ¬ c.readBytes (encode text).length = encode text) :
    Yields definitions 1 (.literal text) c (c.withError (.literalMismatch text c.offset)) := by
  have h : Yields definitions 1 (.literal text) c _ := yields_leaf .literal hc
  rwa [Cursor.matchLiteral, if_neg hbytes] at h

theorem yields_literal (hc : c.failed = false) (ho : 0 ≤ c.offset)
    (htext : encode text = String.utf8EncodeChar ch) (hch : ch ≠ replacementRune)
    (hread : c.source.readRune c.offset = some (ch, w)) :
    Yields definitions 1 (.literal text) c (c.withResult (.text text) (c.offset + w)) := by
  obtain ⟨hw, _⟩ := (Source.readRune_eq_some_iff ho hch).mp hread
  rw [hw, ← htext]
  apply yields_literal_of_bytes hc
  rw [htext, Cursor.readBytes, Source.read_eq_utf8EncodeChar_iff ho hch, hread, hw]

theorem yields_literal_fails (hc : c.failed = false) (ho : 0 ≤ c.offset)
    (htext : encode text = String.utf8EncodeChar ch) (hch : ch ≠ replacementRune)
    (hread : ∀ w, c.source.readRune c.offset ≠ some (ch, w)) :
    Yields definitions 1 (.literal text) c (c.withError (.literalMismatch text c.offset)) := by
  apply yields_literal_of_not_bytes hc
  rw [htext, Cursor.readBytes, Source.read_eq_utf8EncodeChar_iff ho hch]
  exact hread _

/-- Runes that are all accepted are a row of successes. -/
theorem runes_pass (complaint : Option Complaint) (what : String) {cs : List Char}
    (h : c.source.Runes c.offset cs e) (hc : c.failed = false)
    (haccepts : ∀ ch ∈ cs, accepts ch = true) :
    ∃ v, Passes (Yields definitions 1) (List.replicate cs.length (.rune accepts complaint what)) c
      (cs.map fun ch => .text (String.singleton ch)) (c.withResult v e) := by
  induction cs generalizing c with
  | nil =>
    cases h
    exact ⟨c.result, .nil c⟩
  | cons ch cs ih =>
    cases h with
    | @cons _ _ _ w _ hread hrest =>
      have hfirst : Yields definitions 1 (.rune accepts complaint what) c _ :=
        yields_rune complaint what hc hread (haccepts ch (List.mem_cons_self ..))
      have hothers : ∀ d ∈ cs, accepts d = true :=
        fun d hd => haccepts d (List.mem_cons_of_mem _ hd)
      obtain ⟨v, hpasses⟩ :=
        @ih (c.withResult (.text (String.singleton ch)) (c.offset + w)) hrest hc hothers
      exact ⟨v, .cons hfirst hc hpasses⟩

/-- Accepted runes, as far as they go, are all the successes of a repetition. -/
theorem longest_runes_pass (complaint : Option Complaint) (what : String) {cs : List Char} {n : Nat}
    (h : c.source.Runes c.offset cs e) (hc : c.failed = false)
    (haccepts : ∀ ch ∈ cs, accepts ch = true)
    (hstop : ∀ ch w, c.source.readRune e = some (ch, w) → accepts ch = false) (hn : 0 < n) :
    ∃ v, Passes (Yields definitions n) (List.replicate cs.length (.rune accepts complaint what)) c
        (cs.map fun ch => .text (String.singleton ch)) (c.withResult v e) ∧
      Refuses definitions n (.rune accepts complaint what) (c.withResult v e) := by
  obtain ⟨v, hpasses⟩ := runes_pass complaint what h hc haccepts
  have hend : Refuses definitions 1 (.rune accepts complaint what) (c.withResult v e) :=
    refuses_rune hc hstop
  exact ⟨v, hpasses.mono fun _ _ _ hq => hq.mono hn, hend.mono hn⟩

/-- Without as many accepted runes there is a shorter row of successes in front of a failure. -/
theorem runes_stop (complaint : Option Complaint) (what : String) {count : Nat}
    (hc : c.failed = false)
    (h : ∀ cs e, c.source.Runes c.offset cs e → cs.length = count →
      ¬ ∀ ch ∈ cs, accepts ch = true) :
    ∃ k rs last, k < count ∧
      Passes (Yields definitions 1) (List.replicate k (.rune accepts complaint what)) c rs last ∧
      Refuses definitions 1 (.rune accepts complaint what) last := by
  induction count generalizing c with
  | zero =>
    have hnil := h [] c.offset (.nil _) rfl
    exact absurd (fun ch hmem => by cases hmem) hnil
  | succ count ih =>
    by_cases hread : ∃ ch w, c.source.readRune c.offset = some (ch, w) ∧ accepts ch = true
    · obtain ⟨ch, w, hread, haccepts⟩ := hread
      have hfirst : Yields definitions 1 (.rune accepts complaint what) c _ :=
        yields_rune complaint what hc hread haccepts
      obtain ⟨k, rs, last, hk, hpasses, hstop⟩ :=
        @ih (c.withResult (.text (String.singleton ch)) (c.offset + w)) hc
          fun cs e hcs hlength hall =>
            h (ch :: cs) e (.cons hread hcs) (by rw [List.length_cons, hlength])
            (List.forall_mem_cons.mpr ⟨haccepts, hall⟩)
      exact ⟨k + 1, _, last, by omega, .cons hfirst hc hpasses, hstop⟩
    · refine ⟨0, [], c, by omega, .nil c, refuses_rune hc fun ch w hrune => ?_⟩
      cases haccepts : accepts ch with
      | false => rfl
      | true => exact absurd ⟨ch, w, hrune, haccepts⟩ hread

end Parser

end Scannerless
