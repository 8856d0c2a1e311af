import Mathlib.Order.Bounds.Basic
import Scannerless.Parser.Whitespace
import Scannerless.Proofs.Iteration
import Scannerless.Proofs.Matchers

/-!
# Skipping white space

White space is skipped rune by rune, so it ends at the first offset that whole blank runes lead to
and where no blank rune follows: another rune, bytes that are no whole rune, or the end of the
source. A parser with white space behind it succeeds where the parser does, with its result, and
fails with its failure.
-/
namespace Scannerless

open Text

namespace Source

variable {source : Source} {o e m : Int} {cs : List Char} {accepts : Char → Bool}

/-- Whole blank runes lead from one offset to the other. -/
def OverBlanks (source : Source) (o m : Int) : Prop :=
  ∃ cs, source.Runes o cs m ∧ ∀ ch ∈ cs, isBlank ch = true

/-- Where white space from an offset on may end: behind whole blank runes, and where no complete
rune starts or the next one is not blank. -/
def blankEnds (source : Source) (o : Int) : Set Int :=
  {m | source.OverBlanks o m ∧ ∀ ch w, source.readRune m = some (ch, w) → isBlank ch = false}

/-- Accepted runes do not lead past a place that more accepted runes cannot be read from. -/
theorem Runes.le_of_stop (h : source.Runes o cs e) (haccepts : ∀ ch ∈ cs, accepts ch = true)
    {ds : List Char} (h' : source.Runes o ds m)
    (hstop : ∀ ch w, source.readRune m = some (ch, w) → accepts ch = false) :
    e ≤ m := by
  induction h generalizing ds with
  | nil o =>
    have hbounds := h'.bounds.1
    omega
  | @cons o e ch w cs hread _ ih =>
    obtain ⟨hfirst, hothers⟩ := List.forall_mem_cons.mp haccepts
    cases h' with
    | nil =>
      have hrefused := hstop ch w hread
      rw [hfirst] at hrefused
      cases hrefused
    | @cons _ _ ch' w' _ hread' hrest' =>
      -- Both rows read the same rune first.
      obtain ⟨-, rfl⟩ := Prod.mk.inj (Option.some.inj (hread.symm.trans hread'))
      exact ih hothers hrest'

theorem isLeast_blankEnds (h : source.Runes o cs e) (hblanks : ∀ ch ∈ cs, isBlank ch = true)
    (hstop : ∀ ch w, source.readRune e = some (ch, w) → isBlank ch = false) :
    IsLeast (source.blankEnds o) e :=
  ⟨⟨⟨cs, h, hblanks⟩, hstop⟩, fun _ ⟨⟨_, hruns, _⟩, hends⟩ => h.le_of_stop hblanks hruns hends⟩

theorem exists_isLeast_blankEnds (source : Source) (o : Int) :
    ∃ e, IsLeast (source.blankEnds o) e := by
  obtain ⟨cs, e, hruns, hblanks, hstop⟩ := source.exists_runes_while isBlank o
  exact ⟨e, isLeast_blankEnds hruns hblanks hstop⟩

/-- White space ends where it has ended. -/
theorem isLeast_blankEnds_self (h : IsLeast (source.blankEnds o) e) :
    IsLeast (source.blankEnds e) e :=
  isLeast_blankEnds (.nil e) nofun h.1.2

end Source

namespace Parser

variable {definitions : Definitions} {c m r : Cursor} {cs : List Char} {e : Int} {n : Nat}
  {p : Parser}

/-- Blank runes as far as they go are skipped. -/
theorem yields_skip (hc : c.failed = false) (h : c.source.Runes c.offset cs e)
    (hblanks : ∀ ch ∈ cs, isBlank ch = true)
    (hstop : ∀ ch w, c.source.readRune e = some (ch, w) → isBlank ch = false) (hn : cs.length < n) :
    Yields definitions (n + 4) ignoreWhitespace c (c.withResult .nothing e) := by
  obtain ⟨v, hpasses, hend⟩ :=
    longest_runes_pass none "space" h hc hblanks hstop (Nat.zero_lt_of_lt hn)
  have hmany : Yields definitions (n + 1) (.many space) c _ := yields_many hc hpasses hend hn
  exact yields_named hc (yields_named hc (yields_map hc hmany hc rfl))

theorem yields_skip1 (hc : c.failed = false) (h : c.source.Runes c.offset cs e) (hne : cs ≠ [])
    (hblanks : ∀ ch ∈ cs, isBlank ch = true)
    (hstop : ∀ ch w, c.source.readRune e = some (ch, w) → isBlank ch = false) (hn : cs.length < n) :
    Yields definitions (n + 4) ignoreWhitespace1 c (c.withResult .nothing e) := by
  obtain ⟨ch, cs, rfl⟩ := List.exists_cons_of_ne_nil hne
  obtain ⟨v, hpasses, hend⟩ :=
    longest_runes_pass none "space" h hc hblanks hstop (Nat.zero_lt_of_lt hn)
  have hmany : Yields definitions (n + 1) (.many1 space) c _ := yields_many1 hc hpasses hend hn
  exact yields_named hc (yields_named hc (yields_map hc hmany hc rfl))

theorem yields_skip1_fails (hc : c.failed = false)
    (hstop : ∀ ch w, c.source.readRune c.offset = some (ch, w) → isBlank ch = false) (hn : 0 < n) :
    Yields definitions (n + 4) ignoreWhitespace1 c (c.withError (.noRepetition c.offset)) := by
  have hrefuses : Refuses definitions 1 space c := refuses_rune hc hstop
  have hmany : Yields definitions (n + 1) (.many1 space) c _ :=
    yields_many1_fails hc (hrefuses.mono hn) hn
  exact yields_named hc (yields_named hc (yields_map_fails hc hmany rfl))

theorem yields_ignoreWhitespace (hc : c.failed = false)
    (he : IsLeast (c.source.blankEnds c.offset) e) :
    Yields definitions (c.source.size + 5) ignoreWhitespace c (c.withResult .nothing e) := by
  obtain ⟨⟨⟨cs, hruns, hblanks⟩, hstop⟩, -⟩ := he
  exact yields_skip hc hruns hblanks hstop (Nat.lt_succ_of_le hruns.length_le)

theorem yields_ignoreWhitespace1 (hc : c.failed = false)
    (he : IsLeast (c.source.blankEnds c.offset) e) :
    Yields definitions (c.source.size + 5) ignoreWhitespace1 c
      (if c.offset < e then c.withResult .nothing e else c.withError (.noRepetition c.offset)) := by
  obtain ⟨⟨⟨cs, hruns, hblanks⟩, hstop⟩, -⟩ := he
  have hbounds := hruns.bounds.1
  by_cases hne : cs = []
  · subst hne
    cases hruns
    rw [if_neg (Int.lt_irrefl _)]
    exact yields_skip1_fails hc hstop (Nat.succ_pos _)
  · have hlength := List.length_pos_iff.mpr hne
    rw [if_pos (by omega)]
    exact yields_skip1 hc hruns hne hblanks hstop (Nat.lt_succ_of_le hruns.length_le)

/-! The parser in front of white space. -/

theorem runs_lexeme {s : Cursor} (hc : c.failed = false) (hp : Runs definitions p c m)
    (hm : m.failed = false) (hs : Runs definitions ignoreWhitespace m s) :
    Runs definitions (lexeme p) c (c.withResult m.result s.offset) := by
  obtain ⟨e, he⟩ := m.source.exists_isLeast_blankEnds m.offset
  obtain ⟨n, hyields⟩ := runs_iff_yields.mp hp
  obtain ⟨n', hskips⟩ := runs_iff_yields.mp hs
  obtain rfl := hskips.unique (yields_ignoreWhitespace hm he)
  have hrow : Passes (Yields definitions (max n n')) [p, ignoreWhitespace] c
      [m.result, .nothing] _ :=
    .cons (hyields.mono (Nat.le_max_left n n')) hm
      (.cons (hskips.mono (Nat.le_max_right n n')) hm (.nil _))
  exact runs_iff_yields.mpr
    ⟨_, yields_named hc (yields_map hc (yields_sequence hc hrow false) hc rfl)⟩

theorem runs_lexeme_fails {d : Diagnostic} (hc : c.failed = false) (hp : Runs definitions p c r)
    (hd : r.error = some d) : Runs definitions (lexeme p) c (c.withError d) := by
  obtain ⟨n, hyields⟩ := runs_iff_yields.mp hp
  have hrow := yields_sequence_fails [ignoreWhitespace] hc (.nil c) hyields hd false
  exact runs_iff_yields.mpr ⟨_, yields_named hc (yields_map_fails hc hrow rfl)⟩

/-- A sequence runs its first part. -/
theorem Step.first_of_sequence {A : Parser → Cursor → Cursor → Prop} {first : Parser}
    {rest : List Parser} {dropNothing : Bool}
    (h : Step definitions A (.sequence (first :: rest) dropNothing) c r) :
    ∃ m, A first c m := by
  generalize hparts : first :: rest = parts at h
  cases h with
  | leaf hact => cases hact
  | sequence hpasses =>
    subst hparts
    cases hpasses with
    | cons hpart => exact ⟨_, hpart⟩
  | sequenceFails hpasses hpart =>
    cases hpasses with
    | nil =>
      obtain ⟨rfl, -⟩ := List.cons.inj hparts
      exact ⟨_, hpart⟩
    | cons hfirst =>
      obtain ⟨rfl, -⟩ := List.cons.inj hparts
      exact ⟨_, hfirst⟩

/-- The parser has run where it has run with white space behind it. -/
theorem exists_runs_of_lexeme (hc : c.failed = false) (h : Runs definitions (lexeme p) c r) :
    ∃ m, Runs definitions p c m := by
  obtain ⟨levels, hnamed⟩ := h.step hc
  cases hnamed with
  | leaf hact => cases hact
  | named hmap =>
    obtain ⟨levels, hstep⟩ := Runs.step ⟨levels, hmap⟩ hc
    have hsequence : ∃ m, Runs definitions (.sequence [p, ignoreWhitespace] false) c m := by
      cases hstep with
      | leaf hact => cases hact
      | map hbody => exact ⟨_, levels, hbody⟩
      | mapFails hbody => exact ⟨_, levels, hbody⟩
    obtain ⟨m, hrun⟩ := hsequence
    obtain ⟨levels, hparts⟩ := hrun.step hc
    obtain ⟨m, hfirst⟩ := hparts.first_of_sequence
    exact ⟨m, levels, hfirst⟩

theorem lexeme_succeeds_iff (hc : c.failed = false) :
    (∃ r, Runs definitions (lexeme p) c r ∧ r.failed = false) ↔
      ∃ m, Runs definitions p c m ∧ m.failed = false := by
  constructor
  · rintro ⟨r, hr, hok⟩
    obtain ⟨m, hm⟩ := exists_runs_of_lexeme hc hr
    refine ⟨m, hm, Bool.eq_false_iff.mpr fun hfailed => ?_⟩
    obtain ⟨d, hd⟩ := Cursor.failed_iff.mp hfailed
    -- The failure of the parser would be that of `r`.
    obtain rfl := hr.unique (runs_lexeme_fails hc hm hd)
    cases hok
  · rintro ⟨m, hm, hok⟩
    obtain ⟨e, he⟩ := m.source.exists_isLeast_blankEnds m.offset
    have hskips : Runs definitions ignoreWhitespace m _ :=
      runs_iff_yields.mpr ⟨_, yields_ignoreWhitespace hok he⟩
    exact ⟨_, runs_lexeme hc hm hok hskips, hc⟩

/-- White space ends at the least offset that whole blank runes lead to and where no blank rune
follows. It is skipped up to there without failure and with nothing as the result, and from there on
nothing is skipped; where some is needed, it fails on the spot if there is none. A parser with white
space behind it succeeds where the parser does, with the result of the parser and behind the white
space, and fails with the failure of the parser at the cursor where it was entered. -/
theorem white_space_skipped (hc : c.failed = false) (definitions : Definitions) :
    (∃ e, c.offset ≤ e ∧ IsLeast (c.source.blankEnds c.offset) e ∧
      Yields definitions (c.source.size + 5) ignoreWhitespace c (c.withResult .nothing e) ∧
      Yields definitions (c.source.size + 5) ignoreWhitespace (c.withResult .nothing e)
        (c.withResult .nothing e) ∧
      Yields definitions (c.source.size + 5) ignoreWhitespace1 c
        (if c.offset < e then c.withResult .nothing e else c.withError (.noRepetition c.offset))) ∧
    ∀ p,
      (∀ m s, Runs definitions p c m → m.failed = false → Runs definitions ignoreWhitespace m s →
        Runs definitions (lexeme p) c (c.withResult m.result s.offset)) ∧
      (∀ f d, Runs definitions p c f → f.error = some d →
        Runs definitions (lexeme p) c (c.withError d)) ∧
      ((∃ r, Runs definitions (lexeme p) c r ∧ r.failed = false) ↔
        ∃ m, Runs definitions p c m ∧ m.failed = false) := by
  obtain ⟨e, he⟩ := c.source.exists_isLeast_blankEnds c.offset
  have hle : c.offset ≤ e := by
    obtain ⟨⟨cs, hruns, -⟩, -⟩ := he.1
    have hbounds := hruns.bounds.1
    omega
  have hagain :
      IsLeast ((c.withResult .nothing e).source.blankEnds (c.withResult .nothing e).offset) e :=
    Source.isLeast_blankEnds_self he
  have hstays : Yields definitions _ ignoreWhitespace (c.withResult .nothing e) _ :=
    yields_ignoreWhitespace hc hagain
  refine ⟨⟨e, hle, he, yields_ignoreWhitespace hc he, hstays, yields_ignoreWhitespace1 hc he⟩,
    fun p => ?_⟩
  exact ⟨fun m s => runs_lexeme hc, fun f d => runs_lexeme_fails hc, lexeme_succeeds_iff hc⟩

/-- Behind a letter, with a blank, a no-break space and a newline in front of an em space that is
cut short. -/
def beforeCutSpace : Cursor :=
  ⟨.ofBytes #[0x61, 0x20, 0xC2, 0xA0, 0x0A, 0xE2, 0x80], 1, .nothing, none⟩

theorem white_space_skipped_cut_space :
    beforeCutSpace.failed = false ∧
      Yields [] 12 ignoreWhitespace1 beforeCutSpace (beforeCutSpace.withResult .nothing 5) ∧
      Runs [] (lexeme (.literal " ")) beforeCutSpace (beforeCutSpace.withResult (.text " ") 5) ∧
      Runs [] (lexeme (.literal "a")) beforeCutSpace
        (beforeCutSpace.withError (.literalMismatch "a" 1)) := by
  obtain ⟨⟨e, -, he, -, -, hskips⟩, hlexeme⟩ := @white_space_skipped beforeCutSpace rfl []
  have hruns : beforeCutSpace.source.Runes 2 ['\u00A0', '\n'] 5 := .cons rfl (.cons rfl (.nil 5))
  have hend := Source.isLeast_blankEnds hruns (List.all_eq_true.mp rfl) nofun
  obtain rfl := he.unique
    (Source.isLeast_blankEnds (.cons rfl hruns) (List.all_eq_true.mp rfl) nofun)
  have hblank : Runs [] (.literal " ") beforeCutSpace (beforeCutSpace.withResult (.text " ") 2) :=
    ⟨1, rfl⟩
  have hletter : Runs [] (.literal "a") beforeCutSpace
      (beforeCutSpace.withError (.literalMismatch "a" 1)) :=
    ⟨1, rfl⟩
  have hbehind : Runs [] ignoreWhitespace (beforeCutSpace.withResult (.text " ") 2) _ :=
    runs_iff_yields.mpr ⟨_, yields_ignoreWhitespace rfl hend⟩
  exact ⟨rfl, hskips, (hlexeme (.literal " ")).1 _ _ hblank rfl hbehind,
    (hlexeme (.literal "a")).2.1 _ _ hletter rfl⟩

end Parser

end Scannerless
