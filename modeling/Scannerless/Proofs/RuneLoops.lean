import Scannerless.Proofs.Matchers

/-!
# Loops over runes and the repetitions they replace

A matcher of many runes has a loop of its own. It reads the runes that a repetition of a matcher of
one rune reads, and it reads as many of them, so the two succeed together, end in one place and give
one text, whole or rune by rune. Both stay where they are if they fail, and only what they report is
different.
-/
namespace Scannerless

open Scannerless.Parser

/-- At `c` a loop over runes gives `looped` and a repetition gives `repeated`, which is the same but
for the result, whole or rune by rune, and for the failure that is reported. -/
structure Cursor.SameRunes (c looped repeated : Cursor) : Prop where
  failed_eq : looped.failed = repeated.failed
  offset_eq : looped.offset = repeated.offset
  reads : looped.failed = false →
    ∃ cs, repeated.result = runeTexts cs ∧ looped.result = .text (String.ofList cs)
  stays : looped.failed = true → ∃ d d', looped = c.withError d ∧ repeated = c.withError d'

namespace Cursor.SameRunes

variable {c : Cursor}

theorem of_runes (hc : c.failed = false) (cs : List Char) (e : Int) :
    c.SameRunes (c.withResult (.text (String.ofList cs)) e) (c.withResult (runeTexts cs) e) := by
  refine ⟨rfl, rfl, fun _ => ⟨cs, rfl, rfl⟩, fun hfailed => ?_⟩
  rw [failed_withResult, hc] at hfailed
  cases hfailed

theorem of_errors (c : Cursor) (d d' : Diagnostic) : c.SameRunes (c.withError d) (c.withError d') :=
  ⟨rfl, rfl, nofun, fun _ => ⟨d, d', rfl, rfl⟩⟩

end Cursor.SameRunes

namespace Parser

variable {c : Cursor} {cs : List Char} {e : Int} {accepts : Char → Outcome Bool} {count : Nat}

/-- A loop over runes has read what a repetition has collected, rune by rune, and ends where the
repetition stands. -/
def SameRounds (c : Cursor) (read : List Char × Int) (collected : List Value × Cursor) : Prop :=
  ∃ v, collected =
    (read.1.reverse.map fun ch => .text (String.singleton ch), c.withResult v read.2)

variable {attempt : Cursor → Outcome Cursor} {complaint : Option Complaint} {what : String}

theorem repeatAll_of_refused (hc : c.failed = false)
    (hattempt : ∀ d, d.failed = false → attempt d = d.matchRune accepts complaint what) {o : Int}
    (hrefused : ∀ ch w, c.source.readRune o = some (ch, w) → accepts ch = .value false)
    (steps : Nat) (v : Value) (results : List Value) :
    Cursor.repeatAll attempt (steps + 1) (c.withResult v o) results =
      .value (results, c.withResult v o) := by
  have hmatch := (hattempt (c.withResult v o) hc).trans
    (Cursor.matchRune_eq_value_iff.mpr (.inr ⟨hrefused, rfl⟩))
  exact Cursor.repeatAll_stops hmatch (Cursor.failed_refuse ..) steps results

/-- The two loops go round together, whatever the predicate answers. Both keep what they have read
last first, the repetition one result for each rune; and where the steps of the one run out there
are no bytes left for the other. -/
theorem runesWhileFrom_alike_repeatAll (hc : c.failed = false)
    (hattempt : ∀ d, d.failed = false → attempt d = d.matchRune accepts complaint what)
    {steps more : Nat} (hmore : steps ≤ more) {o : Int}
    (hsteps : 0 ≤ o → (c.source.size : Int) ≤ o + steps) (v : Value) (runes : List Char) :
    Outcome.Alike (SameRounds c) (c.source.runesWhileFrom accepts steps o runes)
      (Cursor.repeatAll attempt (more + 1) (c.withResult v o)
        (runes.map fun ch => .text (String.singleton ch))) := by
  induction steps generalizing more o v runes with
  | zero =>
    have hnone : ∀ ch w, c.source.readRune o = some (ch, w) → accepts ch = .value false := by
      intro ch w hread
      have hbounds := Source.readRune_bounds hread
      omega
    rw [repeatAll_of_refused hc hattempt hnone]
    exact .value ⟨v, by rw [List.reverse_reverse]⟩
  | succ steps ih =>
    obtain ⟨most, rfl⟩ : ∃ most, more = most + 1 := ⟨more - 1, by omega⟩
    rw [Source.runesWhileFrom]
    cases hread : c.source.readRune o with
    | none =>
      rw [repeatAll_of_refused hc hattempt (by simp [hread])]
      exact .value ⟨v, by rw [List.reverse_reverse]⟩
    | some rune =>
      obtain ⟨ch, w⟩ := rune
      have hbounds := Source.readRune_bounds hread
      cases haccepts : accepts ch with
      | value accepted =>
        cases accepted with
        | true =>
          have hmatch := (hattempt (c.withResult v o) hc).trans
            (Cursor.matchRune_eq_value_iff.mpr (.inl ⟨ch, w, hread, haccepts, rfl⟩))
          rw [Cursor.repeatAll_goesOn hmatch hc]
          simp only [haccepts, Outcome.value_bind, if_true]
          exact ih (by omega) (by omega) (.text (String.singleton ch)) (ch :: runes)
        | false =>
          have hrefused : ∀ ch w, c.source.readRune o = some (ch, w) →
              accepts ch = .value false := by
            intro ch' w' hread'
            obtain ⟨rfl, rfl⟩ := Prod.mk.inj (Option.some.inj (hread.symm.trans hread'))
            exact haccepts
          rw [repeatAll_of_refused hc hattempt hrefused]
          simp only [haccepts, Outcome.value_bind, Bool.false_eq_true, if_false]
          exact .value ⟨v, by rw [List.reverse_reverse]⟩
      | raised fault =>
        have hrune : (c.withResult v o).readRune = some (ch, w) := hread
        rw [Cursor.repeatAll_succ, hattempt (c.withResult v o) hc, Cursor.matchRune, hrune]
        simp only [haccepts]
        exact .raised fault
      | unfinished =>
        have hrune : (c.withResult v o).readRune = some (ch, w) := hread
        rw [Cursor.repeatAll_succ, hattempt (c.withResult v o) hc, Cursor.matchRune, hrune]
        simp only [haccepts]
        exact .unfinished

/-- A run goes one level down with more levels left than the source has bytes. -/
theorem run_eq_runWith (hc : c.failed = false) :
    ∃ levels, c.source.size ≤ levels ∧ ∀ p,
      (Grammar.ofParser p).run c = runWith [] (runFor [] (levels + 1)) (levels + 1) p c := by
  obtain ⟨levels, hsize, hlevels⟩ :
      ∃ levels, c.source.size ≤ levels ∧ Grammar.levels c.source = levels + 1 + 1 :=
    ⟨Grammar.levels c.source - 2, by unfold Grammar.levels; omega, by unfold Grammar.levels; omega⟩
  refine ⟨levels, hsize, fun p => ?_⟩
  rw [Grammar.run, Grammar.ofParser, hlevels, runFor, if_neg (by simp [hc])]

theorem run_runes_alike_many1 (complaint complaint' : Option Complaint) (what what' : String)
    (hc : c.failed = false) :
    Outcome.Alike c.SameRunes ((Grammar.ofParser (.runes accepts complaint what)).run c)
      ((Grammar.ofParser (.many1 (.rune accepts complaint' what'))).run c) := by
  obtain ⟨levels, hlevels, hrun⟩ := run_eq_runWith hc
  have hattempt : ∀ d : Cursor, d.failed = false →
      runFor [] (levels + 1) (.rune accepts complaint' what') d =
        d.matchRune accepts complaint' what' := by
    intro d hd
    simp only [runFor, hd, Bool.false_eq_true, if_false]
    rfl
  rw [hrun, hrun]
  refine .bind (runesWhileFrom_alike_repeatAll hc hattempt hlevels (by omega) c.result []) ?_
  rintro ⟨cs, e⟩ _ ⟨v, rfl⟩
  cases cs with
  | nil =>
    obtain ⟨d, hd⟩ := c.refuse_eq complaint (.runesMismatch c.offset what)
    exact .value (hd ▸ .of_errors c d _)
  | cons ch cs =>
    have hsome :
        ((ch :: cs).reverse.map fun d => Value.text (String.singleton d)).isEmpty = false := by
      simp
    have hcollect : (c.withResult v e).collect
        ((ch :: cs).reverse.map fun d => .text (String.singleton d)) e =
          c.withResult (runeTexts (ch :: cs)) e := by
      rw [Cursor.collect, ← List.map_reverse, List.reverse_reverse]
      rfl
    simp only [hsome, Bool.false_eq_true, if_false]
    exact .value (hcollect ▸ .of_runes hc (ch :: cs) e)

theorem run_exactly_anyRune (hc : c.failed = false) (h : c.source.Runes c.offset cs e)
    (hlength : cs.length = count) :
    (Grammar.ofParser (.exactly count anyRune)).run c = .value (c.withResult (runeTexts cs) e) := by
  obtain ⟨v, hpasses⟩ := runes_pass none "any rune" h hc fun _ _ => rfl
  rw [hlength] at hpasses
  exact run_of_yields_size (yields_exactly hc hpasses) (by omega)

theorem run_exactly_anyRune_fails (hc : c.failed = false)
    (h : ∀ cs e, c.source.Runes c.offset cs e → cs.length ≠ count) :
    (Grammar.ofParser (.exactly count anyRune)).run c =
      .value (c.withError (.repetitionCount count c.offset)) := by
  obtain ⟨k, rs, last, hk, hpasses, hstop⟩ :=
    runes_stop none "any rune" hc fun cs e hruns hlength => absurd hlength (h cs e hruns)
  exact run_of_yields_size (yields_exactly_fails hc hpasses hstop hk) (by omega)

/-- The loops over runes do what the repetitions do that they replace, whatever the source holds and
wherever the cursor stands. A run of accepted runes, one at least, is the repetition of an accepted
rune; where the predicate raises a fault or never answers, so it does to both, and where it always
answers, both give a cursor. A number of runes is that many repetitions of any rune. -/
theorem rune_loops_agree (hc : c.failed = false) :
    (∀ (accepts : Char → Outcome Bool) complaint what complaint' what', Outcome.Alike c.SameRunes
      ((Grammar.ofParser (.runes accepts complaint what)).run c)
      ((Grammar.ofParser (.many1 (.rune accepts complaint' what'))).run c)) ∧
    (∀ (accepts : Char → Bool) complaint what complaint' what', ∃ looped repeated,
      (Grammar.ofParser (.runes accepts complaint what)).run c = .value looped ∧
      (Grammar.ofParser (.many1 (.rune accepts complaint' what'))).run c = .value repeated ∧
      c.SameRunes looped repeated) ∧
    ∀ count, ∃ looped repeated,
      (Grammar.ofParser (.runeCount count)).run c = .value looped ∧
      (Grammar.ofParser (.exactly count anyRune)).run c = .value repeated ∧
      c.SameRunes looped repeated := by
  refine ⟨fun accepts complaint what complaint' what' =>
    run_runes_alike_many1 complaint complaint' what what' hc, ?_, ?_⟩
  · intro accepts complaint what complaint' what'
    obtain ⟨looped, hlooped⟩ : ∃ looped, c.matchRunes accepts complaint what = .value looped := by
      obtain ⟨cs, e, hruns, haccepts, hstop⟩ := c.source.exists_runes_while accepts c.offset
      by_cases hne : cs = []
      · subst hne
        cases hruns
        exact ⟨_, Cursor.matchRunes_of_refused complaint what hstop⟩
      · exact ⟨_, Cursor.matchRunes_of_runes complaint what hruns hne haccepts hstop⟩
    have halike : Outcome.Alike c.SameRunes _
        ((Grammar.ofParser (.many1 (.rune accepts complaint' what'))).run c) :=
      run_runes_alike_many1 complaint complaint' what what' hc
    have hrun : (Grammar.ofParser (.runes accepts complaint what)).run c = .value looped :=
      run_leaf (.runes hlooped) hc
    rw [hrun] at halike
    obtain ⟨repeated, hrepeated, hsame⟩ := halike.exists_of_value
    exact ⟨looped, repeated, hrun, hrepeated, hsame⟩
  · intro count
    by_cases hsome : ∃ cs e, c.source.Runes c.offset cs e ∧ cs.length = count
    · obtain ⟨cs, e, hruns, hlength⟩ := hsome
      have hlooped := Cursor.matchRuneCount_of_runes hruns hlength
      exact ⟨_, _, run_leaf .runeCount hc, run_exactly_anyRune hc hruns hlength,
        hlooped ▸ .of_runes hc cs e⟩
    · have hfew : ∀ cs e, c.source.Runes c.offset cs e → cs.length ≠ count :=
        fun cs e hruns hlength => hsome ⟨cs, e, hruns, hlength⟩
      have hlooped := Cursor.matchRuneCount_of_few hfew
      exact ⟨_, _, run_leaf .runeCount hc, run_exactly_anyRune_fails hc hfew,
        hlooped ▸ .of_errors c _ _⟩

/-- A letter, a byte that is replaced, an accented letter and a euro sign that is cut short. -/
theorem rune_loops_agree_cut_euro :
    ∃ looped repeated,
      (Grammar.ofParser (.runes (fun ch => .value (ch != '!')) none "runes")).run
        (.ofSource (.ofBytes #[0x61, 0xFF, 0xC3, 0xA9, 0xE2, 0x82])) = .value looped ∧
      (Grammar.ofParser (.many1 (.rune (fun ch => .value (ch != '!')) none "rune"))).run
        (.ofSource (.ofBytes #[0x61, 0xFF, 0xC3, 0xA9, 0xE2, 0x82])) = .value repeated ∧
      looped.result = .text "a\uFFFDé" ∧ repeated.offset = 4 := by
  obtain ⟨looped, repeated, hlooped, hrepeated, hsame⟩ :=
    (@rune_loops_agree (.ofSource (.ofBytes #[0x61, 0xFF, 0xC3, 0xA9, 0xE2, 0x82])) rfl).2.1
      (· != '!') none "runes" none "rune"
  obtain ⟨r, hrun, hresult, hoffset⟩ : ∃ r : Cursor,
      (Grammar.ofParser (.runes (fun ch => .value (ch != '!')) none "runes")).run
      (.ofSource (.ofBytes #[0x61, 0xFF, 0xC3, 0xA9, 0xE2, 0x82])) = .value r ∧
      r.result = .text "a\uFFFDé" ∧ r.offset = 4 := ⟨_, run_leaf (.runes rfl) rfl, rfl, rfl⟩
  obtain rfl := Outcome.value.inj (hlooped.symm.trans hrun)
  exact ⟨looped, repeated, hlooped, hrepeated, hresult, hsame.offset_eq.symm.trans hoffset⟩

end Parser

end Scannerless
