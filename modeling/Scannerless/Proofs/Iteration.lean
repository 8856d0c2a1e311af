import Scannerless.Proofs.Termination.Consuming

/-!
# Repetitions and the iteration of their body

A parser that is run again where it left off gives a sequence of cursors, until an attempt fails.
Every repetition of the parser is read off this one sequence: how many of its results are kept,
where the repetition ends, and how it fails. The parser may be any, and may be the author's own.
-/
namespace Scannerless.Parser

variable {definitions : Definitions} {p stop : Parser} {c r f : Cursor} {cs : Nat → Cursor}
  {k m : Nat}

/-- A run gives the same with all levels from some number on. -/
theorem runs_iff_yields : Runs definitions p c r ↔ ∃ n, Yields definitions n p c r := by
  constructor
  · rintro ⟨n, hrun⟩
    refine ⟨n, fun levels hlevels => ?_⟩
    rw [runFor_eq_of_le hlevels (by rw [hrun]; nofun), hrun]
  · rintro ⟨n, h⟩
    exact ⟨n, h n (Nat.le_refl n)⟩

theorem Runs.unique (h : Runs definitions p c r) (h' : Runs definitions p c f) : r = f := by
  obtain ⟨n, hyields⟩ := runs_iff_yields.mp h
  obtain ⟨n', hyields'⟩ := runs_iff_yields.mp h'
  exact hyields.unique hyields'

/-- `p` run again and again from `c` on gives the cursors `cs 1`, …, `cs k`, and then fails with
`f`. -/
structure Iterates (definitions : Definitions) (p : Parser) (c : Cursor) (cs : Nat → Cursor)
    (k : Nat) (f : Cursor) : Prop where
  start_eq : cs 0 = c
  runs : ∀ i < k, Runs definitions p (cs i) (cs (i + 1)) ∧ (cs (i + 1)).failed = false
  stops : Runs definitions p (cs k) f ∧ f.failed = true

/-- The results of the first `m` iterations. -/
def resultsOf (cs : Nat → Cursor) (m : Nat) : List Value :=
  (List.range m).map fun i => (cs (i + 1)).result

/-- The cursor behind the first `m` iterations, with the tuple of their results. -/
def gathered (cs : Nat → Cursor) (m : Nat) : Cursor :=
  (cs m).withResult (.tuple (resultsOf cs m)) (cs m).offset

theorem resultsOf_succ (cs : Nat → Cursor) (m : Nat) :
    resultsOf cs (m + 1) = resultsOf cs m ++ [(cs (m + 1)).result] := by
  rw [resultsOf, resultsOf, List.range_succ, List.map_append]
  rfl

/-- Rounds that each have enough levels are a row of successes with enough levels for all. `A` is
what a round is, and more levels are as good. -/
theorem exists_passes {A : Nat → Parser → Cursor → Cursor → Prop}
    (hmono : ∀ {n more q c r}, n ≤ more → A n q c r → A more q c r)
    (h : ∀ i < m, (∃ n, A n p (cs i) (cs (i + 1))) ∧ (cs (i + 1)).failed = false) :
    ∃ n, Passes (A n) (List.replicate m p) (cs 0) (resultsOf cs m) (cs m) := by
  induction m with
  | zero => exact ⟨0, .nil _⟩
  | succ m ih =>
    obtain ⟨n, hpasses⟩ := ih fun i hi => h i (by omega)
    obtain ⟨⟨n', hlast⟩, hok⟩ := h m (by omega)
    refine ⟨max n n', ?_⟩
    rw [List.replicate_succ', resultsOf_succ]
    have hrow : Passes (A (max n n')) (List.replicate m p) (cs 0) (resultsOf cs m) (cs m) :=
      hpasses.mono fun _ _ _ => hmono (Nat.le_max_left n n')
    exact hrow.append (.cons (hmono (Nat.le_max_right n n') hlast) hok (.nil _))

namespace Iterates

theorem ok (h : Iterates definitions p c cs k f) (hc : c.failed = false) :
    ∀ {i}, i ≤ k → (cs i).failed = false
  | 0, _ => by rwa [h.start_eq]
  | i + 1, hi => (h.runs i hi).2

theorem passes (h : Iterates definitions p c cs k f) (hm : m ≤ k) :
    ∃ n, Passes (Yields definitions n) (List.replicate m p) c (resultsOf cs m) (cs m) := by
  rw [← h.start_eq]
  refine exists_passes (fun hle hq => hq.mono hle) fun i hi => ?_
  obtain ⟨hruns, hok⟩ := h.runs i (by omega)
  exact ⟨runs_iff_yields.mp hruns, hok⟩

/-- All iterations and the attempt that fails, with levels to spare. -/
theorem passes_and_refuses (h : Iterates definitions p c cs k f) :
    ∃ n, k < n ∧ Passes (Yields definitions n) (List.replicate k p) c (resultsOf cs k) (cs k) ∧
      Yields definitions n p (cs k) f := by
  obtain ⟨n, hpasses⟩ := h.passes (Nat.le_refl k)
  obtain ⟨n', hstop⟩ := runs_iff_yields.mp h.stops.1
  exact ⟨max (max n n') (k + 1), by omega, hpasses.mono fun _ _ _ hq => hq.mono (by omega),
    hstop.mono (by omega)⟩

/-- The rounds of a repetition until `stop`, which fails in front of each of them. -/
theorem rounds (h : Iterates definitions p c cs k f) (hm : m ≤ k)
    (hpending : ∀ i < m, ∃ t, Runs definitions stop (cs i) t ∧ t.failed = true) :
    ∃ n, Passes (Pending (Yields definitions n) stop) (List.replicate m p) c (resultsOf cs m)
      (cs m) := by
  rw [← h.start_eq]
  refine exists_passes (A := fun n => Pending (Yields definitions n) stop)
    (fun hle => Pending.mono fun _ _ _ hq => hq.mono hle) fun i hi => ?_
  obtain ⟨hruns, hok⟩ := h.runs i (by omega)
  obtain ⟨t, hstop, ht⟩ := hpending i hi
  obtain ⟨n, hbody⟩ := runs_iff_yields.mp hruns
  obtain ⟨n', hlook⟩ := runs_iff_yields.mp hstop
  exact ⟨⟨max n n', ⟨t, hlook.mono (Nat.le_max_right n n'), ht⟩, hbody.mono (Nat.le_max_left n n')⟩,
    hok⟩

section

variable (h : Iterates definitions p c cs k f) (hc : c.failed = false)
include h hc

theorem many : Runs definitions (.many p) c (gathered cs k) := by
  obtain ⟨n, hk, hpasses, hstop⟩ := h.passes_and_refuses
  exact runs_iff_yields.mpr ⟨_, yields_many hc hpasses ⟨f, hstop, h.stops.2⟩ hk⟩

theorem many1 :
    Runs definitions (.many1 p) c
      (if k = 0 then c.withError (.noRepetition c.offset) else gathered cs k) := by
  obtain ⟨n, hk, hpasses, hstop⟩ := h.passes_and_refuses
  have hrefuses : Refuses definitions n p (cs k) := ⟨f, hstop, h.stops.2⟩
  cases k with
  | zero =>
    rw [h.start_eq] at hrefuses
    exact runs_iff_yields.mpr ⟨_, yields_many1_fails hc hrefuses hk⟩
  | succ k => exact runs_iff_yields.mpr ⟨_, yields_many1 hc hpasses hrefuses hk⟩

theorem exactly (count : Nat) :
    Runs definitions (.exactly count p) c
      (if count ≤ k then c.withResult (.tuple (resultsOf cs count)) (cs count).offset
      else c.withError (.repetitionCount count c.offset)) := by
  split
  · rename_i hle
    obtain ⟨n, hpasses⟩ := h.passes hle
    exact runs_iff_yields.mpr ⟨_, yields_exactly hc hpasses⟩
  · rename_i hlt
    obtain ⟨n, _, hpasses, hstop⟩ := h.passes_and_refuses
    exact runs_iff_yields.mpr
      ⟨_, yields_exactly_fails hc hpasses ⟨f, hstop, h.stops.2⟩ (Nat.lt_of_not_le hlt)⟩

theorem upTo (count : Nat) :
    Runs definitions (.upTo count p) c
      (if count = 0 then c else if k = 0 then f else gathered cs (min count k)) := by
  obtain ⟨n, _, hpasses, hstop⟩ := h.passes_and_refuses
  by_cases hcount : count = 0
  · subst hcount
    exact runs_iff_yields.mpr ⟨_, yields_upTo_zero hc⟩
  · rw [if_neg hcount]
    by_cases hk : k = 0
    · rw [if_pos hk]
      rw [hk, h.start_eq] at hstop
      exact runs_iff_yields.mpr
        ⟨_, yields_upTo_fails hc (Nat.pos_of_ne_zero hcount) hstop h.stops.2⟩
    · rw [if_neg hk]
      rcases Nat.lt_or_ge k count with hlt | hge
      · rw [Nat.min_eq_right (Nat.le_of_lt hlt)]
        exact runs_iff_yields.mpr
          ⟨_, yields_upTo_some hc (Nat.pos_of_ne_zero hk) hlt hpasses ⟨f, hstop, h.stops.2⟩⟩
      · rw [Nat.min_eq_left hge]
        obtain ⟨n, hrow⟩ := h.passes hge
        exact runs_iff_yields.mpr ⟨_, yields_upTo_all hc (Nat.pos_of_ne_zero hcount) hrow⟩

theorem untilStop {j : Nat} (hj : j ≤ k)
    (hpending : ∀ i < j, ∃ t, Runs definitions stop (cs i) t ∧ t.failed = true) {t : Cursor}
    (hstop : Runs definitions stop (cs j) t) (ht : t.failed = false) :
    Runs definitions (.untilStop stop p) c (gathered cs j) := by
  obtain ⟨n, hrounds⟩ := h.rounds hj hpending
  obtain ⟨n', hlook⟩ := runs_iff_yields.mp hstop
  have hmore : Passes (Pending (Yields definitions (max (max n n') (j + 1))) stop)
      (List.replicate j p) c (resultsOf cs j) (cs j) :=
    hrounds.mono fun _ _ _ => Pending.mono fun _ _ _ hq => hq.mono (by omega)
  exact runs_iff_yields.mpr ⟨_, yields_untilStop hc hmore (hlook.mono (by omega)) ht (by omega)⟩

theorem untilStop_fails (hpending : ∀ i < k, ∃ t, Runs definitions stop (cs i) t ∧ t.failed = true)
    {t : Cursor} (hstop : Runs definitions stop (cs k) t) (ht : t.failed = true) :
    Runs definitions (.untilStop stop p) c t := by
  obtain ⟨n, hrounds⟩ := h.rounds (Nat.le_refl k) hpending
  obtain ⟨n', hlook⟩ := runs_iff_yields.mp hstop
  obtain ⟨n'', _, _, hbody⟩ := h.passes_and_refuses
  have hmore : Passes (Pending (Yields definitions (max (max n n') (max n'' (k + 1)))) stop)
      (List.replicate k p) c (resultsOf cs k) (cs k) :=
    hrounds.mono fun _ _ _ => Pending.mono fun _ _ _ hq => hq.mono (by omega)
  have hrefuses : Refuses definitions n'' p (cs k) := ⟨f, hbody, h.stops.2⟩
  exact runs_iff_yields.mpr
    ⟨_, yields_untilStop_fails hc hmore (hlook.mono (by omega)) ht (hrefuses.mono (by omega))
      (by omega)⟩

end

/-- One more iteration in front. -/
theorem cons {next : Cursor} (hfirst : Runs definitions p c next) (hnext : next.failed = false)
    (h : Iterates definitions p next cs k f) :
    Iterates definitions p c (fun i => if i = 0 then c else cs (i - 1)) (k + 1) f := by
  refine ⟨rfl, fun i hi => ?_, h.stops⟩
  cases i with
  | zero =>
    refine ⟨?_, ?_⟩
    · show Runs definitions p c (cs 0)
      rwa [h.start_eq]
    · show (cs 0).failed = false
      rwa [h.start_eq]
  | succ i => exact h.runs i (by omega)

end Iterates

/-- At `c` and further on in the same source the parser comes back, and each success takes it
further on and not behind the last byte. -/
def StrictlyAdvances (definitions : Definitions) (p : Parser) (c : Cursor) : Prop :=
  ∀ d, d.source = c.source → d.failed = false → c.offset ≤ d.offset →
    ∃ r, Runs definitions p d r ∧
      (r.failed = false → r.source = c.source ∧ d.offset < r.offset ∧ r.offset ≤ c.source.size)

/-- A parser of the library that comes back and reads something with every success strictly
advances. -/
theorem StrictlyAdvances.of_consumes (hp : p.Throughout definitions IsLibrary)
    (hreturns : ∀ d, d.failed = false → ∃ r, Runs definitions p d r)
    (hconsumes : Consumes definitions c.source p) : StrictlyAdvances definitions p c := by
  intro d hd hok _
  obtain ⟨r, hrun⟩ := hreturns d hok
  refine ⟨r, hrun, fun hr => ?_⟩
  have hadvances := hrun.advances hp hok hr
  have hlt := hconsumes d r hd hok hrun hr
  have hle := hadvances.offset_le
  rw [hd] at hle
  exact ⟨hadvances.source_eq.trans hd, hlt, by omega⟩

/-- By induction on the bytes that are left. -/
theorem StrictlyAdvances.iterates (h : StrictlyAdvances definitions p c) (hc : c.failed = false) :
    ∃ cs k f, Iterates definitions p c cs k f := by
  induction hleft : bytesLeft c using Nat.strongRecOn generalizing c with
  | ind left ih =>
    obtain ⟨r, hrun, hr⟩ := h c rfl hc (Int.le_refl _)
    cases hfailed : r.failed with
    | true => exact ⟨fun _ => c, 0, r, rfl, nofun, hrun, hfailed⟩
    | false =>
      obtain ⟨hsource, hlt, hle⟩ := hr hfailed
      have hfewer : bytesLeft r < left := by
        rw [← hleft]
        exact bytesLeft_lt ⟨hsource, Int.le_of_lt hlt, by omega⟩ hlt
      have hrest : StrictlyAdvances definitions p r := by
        intro d hd hok hoffset
        rw [hsource] at hd ⊢
        exact h d hd hok (by omega)
      obtain ⟨cs, k, f, hiterates⟩ := ih (bytesLeft r) hfewer hrest hfailed rfl
      exact ⟨_, _, f, hiterates.cons hrun hfailed⟩

/-- All repetitions agree on one sequence of iterations. A parser that strictly advances has such a
sequence. With `k` successes before the attempt that fails, a repetition without a bound ends behind
all of them, one that needs a success fails without any, a repetition of fixed length ends behind as
many as it counts or fails at its start, one of bounded length ends behind as many as there are
within the bound or hands on the first failure, and a repetition until a stop ends in front of the
first cursor where the stop succeeds or hands on the last failure of the stop. -/
theorem repetitions_agree (hc : c.failed = false) :
    (StrictlyAdvances definitions p c → ∃ cs k f, Iterates definitions p c cs k f) ∧
    ∀ cs k f, Iterates definitions p c cs k f →
      (∀ m ≤ k, (gathered cs m).failed = false) ∧
      Runs definitions (.many p) c (gathered cs k) ∧
      Runs definitions (.many1 p) c
        (if k = 0 then c.withError (.noRepetition c.offset) else gathered cs k) ∧
      (∀ count, Runs definitions (.exactly count p) c
        (if count ≤ k then c.withResult (.tuple (resultsOf cs count)) (cs count).offset
        else c.withError (.repetitionCount count c.offset))) ∧
      (∀ count, Runs definitions (.upTo count p) c
        (if count = 0 then c else if k = 0 then f else gathered cs (min count k))) ∧
      ∀ stop,
        (∀ j ≤ k, (∀ i < j, ∃ t, Runs definitions stop (cs i) t ∧ t.failed = true) →
          ∀ t, Runs definitions stop (cs j) t → t.failed = false →
            Runs definitions (.untilStop stop p) c (gathered cs j)) ∧
        ((∀ i < k, ∃ t, Runs definitions stop (cs i) t ∧ t.failed = true) →
          ∀ t, Runs definitions stop (cs k) t → t.failed = true →
            Runs definitions (.untilStop stop p) c t) := by
  refine ⟨fun h => h.iterates hc, fun cs k f h => ⟨fun m hm => h.ok hc hm, h.many hc, h.many1 hc,
    h.exactly hc, h.upTo hc, fun stop => ⟨?_, ?_⟩⟩⟩
  · exact fun j hj hpending t hstop ht => h.untilStop hc hj hpending hstop ht
  · exact fun hpending t hstop ht => h.untilStop_fails hc hpending hstop ht

/-- The cursors of a letter that is read twice. -/
def lettersRead (i : Nat) : Cursor :=
  if i = 0 then .ofSource (.ofBytes #[0x61, 0x61, 0x62])
  else ⟨.ofBytes #[0x61, 0x61, 0x62], i, .text "a", none⟩

/-- Two letters are read and the third is another, which is where a repetition until it stops. -/
theorem repetitions_agree_letters :
    (∃ cs k f, Iterates [] (.literal "a") (lettersRead 0) cs k f) ∧
      Runs [] (.many (.literal "a")) (lettersRead 0) (gathered lettersRead 2) ∧
      Runs [] (.exactly 3 (.literal "a")) (lettersRead 0)
        ((lettersRead 0).withError (.repetitionCount 3 0)) ∧
      Runs [] (.upTo 1 (.literal "a")) (lettersRead 0) (gathered lettersRead 1) ∧
      Runs [] (.untilStop (.literal "b") (.literal "a")) (lettersRead 0)
        (gathered lettersRead 2) := by
  have hadvances : StrictlyAdvances [] (.literal "a") (lettersRead 0) :=
    .of_consumes (.intro trivial nofun)
      (fun d hd => ⟨_, 1, yields_leaf .literal hd 1 (Nat.le_refl 1)⟩)
      (literal_consumes (by decide))
  have hiterates : Iterates [] (.literal "a") (lettersRead 0) lettersRead 2
      ((lettersRead 2).withError (.literalMismatch "a" 2)) := by
    refine ⟨rfl, fun i hi => ?_, ⟨1, rfl⟩, rfl⟩
    match i, hi with
    | 0, _ | 1, _ => exact ⟨⟨1, rfl⟩, rfl⟩
  obtain ⟨hexists, hagree⟩ := @repetitions_agree [] (.literal "a") (lettersRead 0) rfl
  obtain ⟨-, hmany, -, hexactly, hupTo, huntil⟩ := hagree _ _ _ hiterates
  refine ⟨hexists hadvances, hmany, hexactly 3, hupTo 1,
    (huntil (.literal "b")).1 2 (Nat.le_refl 2) (fun i hi => ?_)
      ((lettersRead 2).withResult (.text "b") 3) ⟨1, rfl⟩ rfl⟩
  match i, hi with
  | 0, _ | 1, _ => exact ⟨_, ⟨1, rfl⟩, rfl⟩

end Scannerless.Parser
