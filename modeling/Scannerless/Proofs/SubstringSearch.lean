import Mathlib.Data.Nat.Find
import Mathlib.Tactic.IntervalCases
import Scannerless.Proofs.Ahead

/-!
# A repetition until a literal searches for its text

The literal is compared as bytes and the repetition goes on by runes. No encoding is the beginning
of another, so the bytes of the literal lie ahead exactly where its characters do, and since the
literal is looked at in front of every character, no place where it stands is skipped.
-/
namespace Scannerless

open Text.Utf8

/-- `stop` stands in `text` behind the first `i` characters. -/
def OccursAt (stop text : String) (i : Nat) : Prop :=
  stop.toList <+: text.toList.drop i

instance (stop text : String) (i : Nat) : Decidable (OccursAt stop text i) :=
  inferInstanceAs (Decidable (stop.toList <+: text.toList.drop i))

/-- `stop` stands in `text` at `i`, and nowhere from `j` on in front of that. -/
structure FirstOccurrence (stop text : String) (j i : Nat) : Prop where
  le : j ≤ i
  occurs : OccursAt stop text i
  first : ∀ k, j ≤ k → k < i → ¬ OccursAt stop text k

theorem exists_firstOccurrence {stop text : String} {j : Nat}
    (h : ∃ i, j ≤ i ∧ OccursAt stop text i) :
    ∃ i, FirstOccurrence stop text j i := by
  classical
  obtain ⟨hle, hoccurs⟩ := Nat.find_spec h
  exact ⟨Nat.find h, hle, hoccurs, fun k hk hlt hk' => Nat.find_min h hlt ⟨hk, hk'⟩⟩

theorem FirstOccurrence.unique {stop text : String} {j i k : Nat}
    (hi : FirstOccurrence stop text j i) (hk : FirstOccurrence stop text j k) : i = k := by
  have hle : ¬ i < k := fun hlt => hk.first i hi.le hlt hi.occurs
  have hge : ¬ k < i := fun hlt => hi.first k hk.le hlt hk.occurs
  omega

namespace Parser

variable {definitions : Definitions} {c : Cursor} {cs rest : List Char} {stop text : String}
  {n : Nat}

/-- The characters in front of the literal are the result, and the literal itself is left. -/
theorem yields_untilText_literal (h : c.Ahead (cs ++ rest)) (hrest : stop.toList <+: rest)
    (hcs : ∀ k < cs.length, ¬ stop.toList <+: (cs ++ rest).drop k) (hn : c.source.size < n) :
    Yields definitions (n + 3) (.untilText (.literal stop) anyRune) c
      (c.withResult (.text (String.ofList cs)) (c.behind cs)) := by
  obtain ⟨behind, rfl⟩ := hrest
  obtain ⟨v, hrow⟩ := rounds_until_literal h hcs (Nat.zero_lt_of_lt hn)
  have hstop : Yields definitions 1 (.literal stop) (c.withResult v (c.behind cs)) _ :=
    yields_literal_ahead (h.move v)
  have huntil := yields_untilStop h.ok hrow (hstop.mono (by omega)) h.ok
    (Nat.lt_of_le_of_lt h.count_le hn)
  have hjoin := Value.join_singletons cs
  exact yields_named h.ok
    (yields_map h.ok huntil h.ok (by rw [Cursor.result_withResult, hjoin]; rfl))

/-- Where the literal stands nowhere, the failure is its own behind the last character. -/
theorem yields_untilText_literal_fails (h : c.Ahead cs) (hcs : ∀ k, ¬ stop.toList <+: cs.drop k)
    (hn : c.source.size < n) :
    ∃ v, Yields definitions (n + 3) (.untilText (.literal stop) anyRune) c
      ((c.withResult v (c.behind cs)).withError (.literalMismatch stop (c.behind cs))) := by
  rw [← List.append_nil cs] at h
  obtain ⟨v, hrow⟩ := rounds_until_literal h (fun k _ => by rw [List.append_nil]; exact hcs k)
    (Nat.zero_lt_of_lt hn)
  have hend := h.move v
  have hnone : ¬ stop.toList <+: [] := by
    have hlast := hcs cs.length
    rwa [List.drop_length] at hlast
  have hstop : Yields definitions 1 (.literal stop) (c.withResult v (c.behind cs)) _ :=
    yields_literal_not_ahead hend hnone
  have hbody : Refuses definitions 1 anyRune (c.withResult v (c.behind cs)) :=
    refuses_anyRune h.ok hend.readRune
  have huntil := yields_untilStop_fails h.ok hrow (hstop.mono (by omega)) rfl
    (hbody.mono (by omega))
    (Nat.lt_of_le_of_lt h.count_le hn)
  exact ⟨v, yields_named h.ok (yields_map_fails h.ok huntil rfl)⟩

section

variable {i j : Nat} (hc : c.failed = false) (hbytes : c.source.bytes.toList = encode text)
  (ho : c.offset = (encodeChars (text.toList.take j)).length)
include hc hbytes ho

theorem ahead_at_boundary : c.Ahead (text.toList.drop j) := by
  refine Cursor.ahead_of_bytes hc ?_ ho
  rw [hbytes, ← encodeChars_append, List.take_append_drop, encode]

omit hc hbytes in
theorem behind_at_boundary (cs : List Char) :
    c.behind cs = (encodeChars (text.toList.take j ++ cs)).length := by
  rw [Cursor.behind, ho, encodeChars_append, List.length_append, Int.natCast_add]

theorem run_untilText_of_first (h : FirstOccurrence stop text j i) :
    (Grammar.ofParser (untilText (.literal stop) anyRune)).run c =
      .value (c.withResult (.text (String.ofList (text.toList.extract j i)))
        (encodeChars (text.toList.take i)).length) := by
  obtain ⟨d, rfl⟩ : ∃ d, i = j + d := ⟨i - j, by have := h.le; omega⟩
  -- The characters from `j` on are cut where the literal stands.
  have hahead := ahead_at_boundary hc hbytes ho
  rw [← List.take_append_drop d (text.toList.drop j)] at hahead
  have hrest : stop.toList <+: (text.toList.drop j).drop d := by
    rw [List.drop_drop]
    exact h.occurs
  have hpassed : ∀ k < ((text.toList.drop j).take d).length,
      ¬ stop.toList <+: ((text.toList.drop j).take d ++ (text.toList.drop j).drop d).drop k := by
    intro k hk
    rw [List.length_take] at hk
    rw [List.take_append_drop, List.drop_drop]
    exact h.first (j + k) (by omega) (by omega)
  have hyields : Yields [] (c.source.size + 4) (.untilText (.literal stop) anyRune) c _ :=
    yields_untilText_literal hahead hrest hpassed (Nat.lt_succ_self _)
  rw [behind_at_boundary ho, ← List.take_add] at hyields
  rw [List.extract_eq_take_drop, Nat.add_sub_cancel_left]
  exact run_of_yields_size hyields (by omega)

theorem run_untilText_of_none (h : ¬ ∃ i, j ≤ i ∧ OccursAt stop text i) :
    ∃ v, (Grammar.ofParser (untilText (.literal stop) anyRune)).run c =
      .value ((c.withResult v (encode text).length).withError
        (.literalMismatch stop (encode text).length)) := by
  have hnone : ∀ k, ¬ stop.toList <+: (text.toList.drop j).drop k := by
    intro k hk
    rw [List.drop_drop] at hk
    exact h ⟨j + k, Nat.le_add_right j k, hk⟩
  obtain ⟨v, hyields⟩ :=
    @yields_untilText_literal_fails [] _ _ _ _ (ahead_at_boundary hc hbytes ho) hnone
    (Nat.lt_succ_self _)
  rw [behind_at_boundary ho, List.take_append_drop] at hyields
  exact ⟨v, run_of_yields_size hyields (by omega)⟩

end

/-- From a boundary between two characters of a text the repetition until a literal ends in front of
the first place where the literal stands, with the characters up to there as its result. If the
literal stands nowhere from there on, its own failure at the end of the text is reported. -/
theorem untilText_finds_first {j : Nat} (hc : c.failed = false)
    (hbytes : c.source.bytes.toList = encode text)
    (ho : c.offset = (encodeChars (text.toList.take j)).length) :
    ∃ r, (Grammar.ofParser (untilText (.literal stop) anyRune)).run c = .value r ∧
      (r.failed = false ↔ ∃ i, j ≤ i ∧ OccursAt stop text i) ∧
      (r.failed = false → ∃ i, FirstOccurrence stop text j i ∧
        r = c.withResult (.text (String.ofList (text.toList.extract j i)))
          (encodeChars (text.toList.take i)).length) ∧
      (r.failed = true → r.error = some (.literalMismatch stop (encode text).length)) := by
  by_cases hoccurs : ∃ i, j ≤ i ∧ OccursAt stop text i
  · obtain ⟨i, hfirst⟩ := exists_firstOccurrence hoccurs
    refine ⟨_, run_untilText_of_first hc hbytes ho hfirst, iff_of_true hc hoccurs,
      fun _ => ⟨i, hfirst, rfl⟩, fun hfailed => ?_⟩
    rw [Cursor.failed_withResult, hc] at hfailed
    cases hfailed
  · obtain ⟨v, hrun⟩ := run_untilText_of_none hc hbytes ho hoccurs
    exact ⟨_, hrun, iff_of_false nofun hoccurs, nofun, fun _ => rfl⟩

/-- A stop that overlaps itself, behind a character of two bytes. The search starts inside one
occurrence and finds the next, past a place where the stop begins and does not go on. -/
theorem untilText_finds_first_overlapping :
    (Grammar.ofParser (untilText (.literal "aab") anyRune)).run
      ⟨.ofText "éaabaaab", 3, .nothing, none⟩ =
      .value ((Cursor.mk (.ofText "éaabaaab") 3 .nothing none).withResult (.text "aba") 6) := by
  obtain ⟨r, hrun, hiff, hsucceeds, -⟩ :=
    @untilText_finds_first ⟨.ofText "éaabaaab", 3, .nothing, none⟩
    "aab" "éaabaaab" 2 rfl rfl (by decide)
  have hat : FirstOccurrence "aab" "éaabaaab" 2 5 := by
    refine ⟨by decide, by decide, fun k hk hlt => ?_⟩
    interval_cases k <;> decide
  obtain ⟨i, hfirst, rfl⟩ := hsucceeds (hiff.mpr ⟨5, hat.le, hat.occurs⟩)
  rw [hrun, hfirst.unique hat]
  rfl

end Parser

end Scannerless
