import Scannerless.Proofs.Step

/-!
# Runs take steps

Every level of a run that gives a cursor is a `Step`. The loops of a level are read back into rows
of successes, each by induction on the loop's own count. `run_induction` then carries a property of
single steps to whole runs, by induction on the levels.
-/
namespace Scannerless

namespace Parser

/-- What an attempt gives, as a relation. -/
def Gives (attempt : Parser → Cursor → Outcome Cursor) (p : Parser) (c r : Cursor) : Prop :=
  attempt p c = .value r

variable {attempt : Parser → Cursor → Outcome Cursor}

theorem kept_cons (dropNothing : Bool) (v : Value) (rs : List Value) :
    kept dropNothing (v :: rs) =
      if dropNothing && v.isNothing then kept dropNothing rs else v :: kept dropNothing rs := by
  cases dropNothing <;> cases h : v.isNothing <;> simp [kept, h]

theorem runParts_eq_value {dropNothing : Bool} {entry r : Cursor} {parts : List Parser}
    {current : Cursor} {results : List Value}
    (h : Cursor.runParts attempt dropNothing entry parts current results = .value r) :
    (∃ rs last, Passes (Gives attempt) parts current rs last ∧
      r = entry.withResult (.tuple (results.reverse ++ kept dropNothing rs)) last.offset) ∨
    ∃ before part after rs last f e, parts = before ++ part :: after ∧
      Passes (Gives attempt) before current rs last ∧ Gives attempt part last f ∧
      f.error = some e ∧ r = entry.withError e := by
  induction parts generalizing current results with
  | nil =>
    left
    refine ⟨[], current, .nil current, ?_⟩
    simpa [Cursor.runParts, Cursor.collect, kept] using h.symm
  | cons part rest ih =>
    rw [Cursor.runParts_cons] at h
    obtain ⟨next, hpart, h⟩ := Outcome.bind_eq_value_iff.mp h
    cases herror : next.error with
    | some e =>
      right
      simp only [herror, Outcome.value.injEq] at h
      exact ⟨[], part, rest, [], current, next, e, rfl, .nil current, hpart, herror, h.symm⟩
    | none =>
      have hnext : next.failed = false := Cursor.not_failed_iff.mpr herror
      -- The rest runs on from `next`; only what is collected depends on the dropping.
      have hrest : Cursor.runParts attempt dropNothing entry rest next
          (if dropNothing && next.result.isNothing then results else next.result :: results) =
          .value r := by
        simp only [herror] at h
        split at h
        · rename_i hdrop
          rwa [if_pos hdrop]
        · rename_i hdrop
          rwa [if_neg hdrop]
      rcases ih hrest with ⟨rs, last, hpasses, hr⟩ | ⟨before, stuck, after, rs, last, f, e, hsplit,
        hpasses, hstuck, he, hr⟩
      · left
        refine ⟨next.result :: rs, last, .cons hpart hnext hpasses, ?_⟩
        rw [hr, kept_cons]
        split <;> simp
      · right
        refine ⟨part :: before, stuck, after, next.result :: rs, last, f, e, ?_,
          .cons hpart hnext hpasses, hstuck, he, hr⟩
        rw [hsplit, List.cons_append]

theorem runAlternatives_eq_value {entry r : Cursor} {alternatives : List Parser}
    (h : entry.runAlternatives attempt alternatives = .value r) :
    (∃ before alternative after, alternatives = before ++ alternative :: after ∧
      (∀ q ∈ before, ∃ f, Gives attempt q entry f ∧ f.failed = true) ∧
      Gives attempt alternative entry r ∧ r.failed = false) ∨
    ((∀ q ∈ alternatives, ∃ f, Gives attempt q entry f ∧ f.failed = true) ∧
      r = entry.withError (.noChoiceMatched entry.offset)) := by
  induction alternatives with
  | nil =>
    right
    simpa [Cursor.runAlternatives] using h.symm
  | cons alternative rest ih =>
    rw [Cursor.runAlternatives_cons] at h
    obtain ⟨next, halt, h⟩ := Outcome.bind_eq_value_iff.mp h
    cases hnext : next.failed with
    | false =>
      left
      simp only [hnext, Bool.false_eq_true, if_false, Outcome.value.injEq] at h
      subst h
      exact ⟨[], alternative, rest, rfl, by simp, halt, hnext⟩
    | true =>
      have hfirst : ∃ f, Gives attempt alternative entry f ∧ f.failed = true := ⟨next, halt, hnext⟩
      simp only [hnext, if_true] at h
      rcases ih h with ⟨before, found, after, hsplit, hbefore, hfound, hr⟩ | ⟨hall, hr⟩
      · left
        refine ⟨alternative :: before, found, after, by rw [hsplit, List.cons_append], ?_, hfound,
          hr⟩
        exact List.forall_mem_cons.mpr ⟨hfirst, hbefore⟩
      · right
        exact ⟨List.forall_mem_cons.mpr ⟨hfirst, hall⟩, hr⟩

variable {body stop : Parser}

theorem repeatAll_eq_value {steps : Nat} {current last : Cursor} {results collected : List Value}
    (h : Cursor.repeatAll (attempt body) steps current results = .value (collected, last)) :
    ∃ k rs f, Passes (Gives attempt) (List.replicate k body) current rs last ∧
      Gives attempt body last f ∧ f.failed = true ∧ collected = rs.reverse ++ results ∧
      rs.length = k := by
  induction steps generalizing current results with
  | zero => simp [Cursor.repeatAll] at h
  | succ steps ih =>
    rw [Cursor.repeatAll_succ] at h
    obtain ⟨next, hbody, h⟩ := Outcome.bind_eq_value_iff.mp h
    cases hnext : next.failed with
    | true =>
      simp only [hnext, if_true, Outcome.value.injEq, Prod.mk.injEq] at h
      obtain ⟨rfl, rfl⟩ := h
      exact ⟨0, [], next, .nil current, hbody, hnext, rfl, rfl⟩
    | false =>
      simp only [hnext, Bool.false_eq_true, if_false] at h
      obtain ⟨k, rs, f, hpasses, hf, hfailed, hcollected, hlength⟩ := ih h
      refine ⟨k + 1, next.result :: rs, f, .cons hbody hnext hpasses, hf, hfailed, ?_, ?_⟩
      · simp [hcollected]
      · simp [hlength]

theorem repeatExactly_eq_value {count left : Nat} {entry current r : Cursor} {results : List Value}
    (h : Cursor.repeatExactly (attempt body) count entry left current results = .value r) :
    (∃ rs last, Passes (Gives attempt) (List.replicate left body) current rs last ∧
      r = entry.withResult (.tuple (results.reverse ++ rs)) last.offset) ∨
    ∃ k rs last f, k < left ∧ Passes (Gives attempt) (List.replicate k body) current rs last ∧
      Gives attempt body last f ∧ f.failed = true ∧
      r = entry.withError (.repetitionCount count entry.offset) := by
  induction left generalizing current results with
  | zero =>
    left
    refine ⟨[], current, .nil current, ?_⟩
    simpa [Cursor.repeatExactly, Cursor.collect] using h.symm
  | succ left ih =>
    rw [Cursor.repeatExactly_succ] at h
    obtain ⟨next, hbody, h⟩ := Outcome.bind_eq_value_iff.mp h
    cases hnext : next.failed with
    | true =>
      right
      simp only [hnext, if_true, Outcome.value.injEq] at h
      exact ⟨0, [], current, next, by omega, .nil current, hbody, hnext, h.symm⟩
    | false =>
      simp only [hnext, Bool.false_eq_true, if_false] at h
      rcases ih h with ⟨rs, last, hpasses, hr⟩ | ⟨k, rs, last, f, hk, hpasses, hf, hfailed, hr⟩
      · left
        exact ⟨next.result :: rs, last, .cons hbody hnext hpasses, by simp [hr]⟩
      · right
        exact ⟨k + 1, next.result :: rs, last, f, by omega, .cons hbody hnext hpasses, hf, hfailed,
          hr⟩

/-- The third case is the first attempt of all, with nothing collected before it. -/
theorem repeatUpTo_eq_value {left : Nat} {current r : Cursor} {results : List Value}
    (h : Cursor.repeatUpTo (attempt body) left current results = .value r) :
    (∃ rs last, Passes (Gives attempt) (List.replicate left body) current rs last ∧
      r = last.withResult (.tuple (results.reverse ++ rs)) last.offset) ∨
    (∃ k rs last f, k < left ∧ Passes (Gives attempt) (List.replicate k body) current rs last ∧
      Gives attempt body last f ∧ f.failed = true ∧ results.length + k ≠ 0 ∧
      r = last.withResult (.tuple (results.reverse ++ rs)) last.offset) ∨
    (0 < left ∧ results = [] ∧ Gives attempt body current r ∧ r.failed = true) := by
  induction left generalizing current results with
  | zero =>
    left
    refine ⟨[], current, .nil current, ?_⟩
    simpa [Cursor.repeatUpTo, Cursor.collect] using h.symm
  | succ left ih =>
    rw [Cursor.repeatUpTo_succ] at h
    obtain ⟨next, hbody, h⟩ := Outcome.bind_eq_value_iff.mp h
    cases hnext : next.failed with
    | true =>
      right
      simp only [hnext, if_true] at h
      cases results with
      | nil =>
        right
        simp only [List.isEmpty_nil, if_true, Outcome.value.injEq] at h
        subst h
        exact ⟨by omega, rfl, hbody, hnext⟩
      | cons v results =>
        left
        refine ⟨0, [], current, next, by omega, .nil current, hbody, hnext, by simp, ?_⟩
        simpa [Cursor.collect] using h.symm
    | false =>
      simp only [hnext, Bool.false_eq_true, if_false] at h
      rcases ih h with ⟨rs, last, hpasses, hr⟩ |
        ⟨k, rs, last, f, hk, hpasses, hf, hfailed, hsome, hr⟩ | ⟨_, hempty, _⟩
      · left
        exact ⟨next.result :: rs, last, .cons hbody hnext hpasses, by simp [hr]⟩
      · right; left
        exact ⟨k + 1, next.result :: rs, last, f, by omega, .cons hbody hnext hpasses, hf, hfailed,
          by omega, by simp [hr]⟩
      · cases hempty

theorem repeatUntil_eq_value {steps : Nat} {current r : Cursor} {results : List Value}
    (h : Cursor.repeatUntil (attempt stop) (attempt body) steps current results = .value r) :
    ∃ k rs last stopped,
      Passes (Pending (Gives attempt) stop) (List.replicate k body) current rs last ∧
      Gives attempt stop last stopped ∧
      (stopped.failed = false ∧ r = last.withResult (.tuple (results.reverse ++ rs)) last.offset ∨
        stopped.failed = true ∧ r = stopped ∧
          ∃ f, Gives attempt body last f ∧ f.failed = true) := by
  induction steps generalizing current results with
  | zero => simp [Cursor.repeatUntil] at h
  | succ steps ih =>
    rw [Cursor.repeatUntil_succ] at h
    obtain ⟨stopped, hstop, h⟩ := Outcome.bind_eq_value_iff.mp h
    cases hstopped : stopped.failed with
    | false =>
      refine ⟨0, [], current, stopped, .nil current, hstop, .inl ⟨hstopped, ?_⟩⟩
      simpa [hstopped, Cursor.collect] using h.symm
    | true =>
      simp only [hstopped, if_true] at h
      obtain ⟨next, hbody, h⟩ := Outcome.bind_eq_value_iff.mp h
      cases hnext : next.failed with
      | true =>
        simp only [hnext, if_true, Outcome.value.injEq] at h
        exact ⟨0, [], current, stopped, .nil current, hstop,
          .inr ⟨hstopped, h.symm, next, hbody, hnext⟩⟩
      | false =>
        simp only [hnext, Bool.false_eq_true, if_false] at h
        obtain ⟨k, rs, last, looked, hpasses, hlooked, hr⟩ := ih h
        refine ⟨k + 1, next.result :: rs, last, looked,
          .cons ⟨⟨stopped, hstop, hstopped⟩, hbody⟩ hnext hpasses, hlooked, ?_⟩
        simpa using hr

/-- A repetition until a stop ends with the stop, or with the failure of the last look at it. -/
theorem step_untilStop {definitions : Definitions} {steps : Nat} {c r : Cursor}
    (h : Cursor.repeatUntil (attempt stop) (attempt body) steps c [] = .value r) :
    Step definitions (Gives attempt) (.untilStop stop body) c r := by
  obtain ⟨k, rs, last, stopped, hpasses, hstop, ⟨hs, hr⟩ | ⟨hs, rfl, f, hbody, hf⟩⟩ :=
    repeatUntil_eq_value h
  · subst hr
    exact .untilStop hpasses hstop hs
  · exact .untilStopFails hpasses hstop hs hbody hf

theorem step_upTo {definitions : Definitions} {count : Nat} {c r : Cursor}
    (h : (if count = 0 then Outcome.value c
      else Cursor.repeatUpTo (attempt body) count c []) = .value r) :
    Step definitions (Gives attempt) (.upTo count body) c r := by
  cases count with
  | zero =>
    simp only [if_true, Outcome.value.injEq] at h
    subst h
    exact .upToNone
  | succ count =>
    rw [if_neg (Nat.succ_ne_zero count)] at h
    rcases repeatUpTo_eq_value h with ⟨rs, last, hpasses, hr⟩ |
      ⟨k, rs, last, f, hk, hpasses, hbody, hf, hsome, hr⟩ | ⟨_, _, hbody, hr⟩
    · subst hr
      exact .upToAll hpasses
    · subst hr
      obtain ⟨j, rfl⟩ : ∃ j, k = j + 1 := ⟨k - 1, by simp at hsome; omega⟩
      exact .upToSome hk hpasses hbody hf
    · exact .upToFails hbody hr

/-- A level that goes on only behind a success, read back. -/
theorem unless_failed_eq_value {x : Outcome Cursor} {go : Cursor → Outcome Cursor} {r : Cursor}
    (h : (x >>= fun m => if m.failed then pure m else go m) = .value r) :
    x = .value r ∧ r.failed = true ∨ ∃ m, x = .value m ∧ m.failed = false ∧ go m = .value r := by
  obtain ⟨m, hx, h⟩ := Outcome.bind_eq_value_iff.mp h
  cases hm : m.failed with
  | true =>
    simp only [hm, if_true, Outcome.pure_eq, Outcome.value.injEq] at h
    subst h
    exact .inl ⟨hx, hm⟩
  | false =>
    simp only [hm, Bool.false_eq_true, if_false] at h
    exact .inr ⟨m, hx, hm, h⟩

/-- Every way in which one level gives a cursor is a step. -/
theorem step_of_runWith {definitions : Definitions} {steps : Nat} {p : Parser} {c r : Cursor}
    (h : runWith definitions attempt steps p c = .value r) :
    Step definitions (Gives attempt) p c r := by
  cases p with
  | rune | runes => exact .leaf (by constructor; exact h)
  | runeCount | literal | foldedLiteral | succeed | fail | startOfInput | endOfInput
  | startOfLine =>
    obtain rfl := Outcome.value.inj h
    exact .leaf (by constructor)
  | sequence parts dropNothing =>
    rcases runParts_eq_value h with ⟨rs, last, hpasses, rfl⟩ |
      ⟨before, part, after, rs, last, f, e, rfl, hpasses, hpart, he, rfl⟩
    · exact .sequence hpasses
    · exact .sequenceFails hpasses hpart he
  | choice alternatives =>
    rcases runAlternatives_eq_value h with ⟨before, alternative, after, rfl, hbefore, halt, hr⟩ |
      ⟨hall, rfl⟩
    · exact .choice hbefore halt hr
    · exact .choiceFails hall
  | chain first next =>
    rcases unless_failed_eq_value h with ⟨hfirst, hr⟩ | ⟨m, hfirst, hm, hnext⟩
    · exact .chainFails hfirst hr
    · exact .chain hfirst hm hnext
  | many body =>
    obtain ⟨⟨collected, last⟩, hrepeat, h⟩ := Outcome.bind_eq_value_iff.mp h
    obtain ⟨k, rs, f, hpasses, hbody, hf, rfl, _⟩ := repeatAll_eq_value hrepeat
    obtain rfl := Outcome.value.inj h
    simpa [Cursor.collect] using Step.many hpasses hbody hf
  | many1 body =>
    obtain ⟨⟨collected, last⟩, hrepeat, h⟩ := Outcome.bind_eq_value_iff.mp h
    obtain ⟨k, rs, f, hpasses, hbody, hf, rfl, hlength⟩ := repeatAll_eq_value hrepeat
    cases k with
    | zero =>
      rw [List.replicate_zero] at hpasses
      cases hpasses
      obtain rfl := Outcome.value.inj h
      exact .many1Fails hbody hf
    | succ k =>
      have hsome : (rs.reverse ++ []).isEmpty = false := by
        simp [List.ne_nil_of_length_eq_add_one hlength]
      simp only [hsome, Bool.false_eq_true, if_false] at h
      obtain rfl := Outcome.value.inj h
      simpa [Cursor.collect] using Step.many1 hpasses hbody hf
  | exactly count body =>
    rcases repeatExactly_eq_value h with ⟨rs, last, hpasses, rfl⟩ |
      ⟨k, rs, last, f, hk, hpasses, hbody, hf, rfl⟩
    · exact .exactly hpasses
    · exact .exactlyFails hk hpasses hbody hf
  | upTo count body => exact step_upTo h
  | untilStop stop body => exact step_untilStop h
  | optional body =>
    obtain ⟨tried, hbody, h⟩ := Outcome.bind_eq_value_iff.mp h
    obtain rfl := Outcome.value.inj h
    cases hf : tried.failed with
    | true => exact .optionalSkips hbody hf
    | false => exact .optional hbody hf
  | peek body =>
    obtain ⟨tried, hbody, h⟩ := Outcome.bind_eq_value_iff.mp h
    obtain rfl := Outcome.value.inj h
    cases hf : tried.failed with
    | true => exact .peekFails hbody hf
    | false => exact .peek hbody hf
  | map body transform =>
    rcases unless_failed_eq_value h with ⟨hbody, hr⟩ | ⟨m, hbody, hm, h⟩
    · exact .mapFails hbody hr
    · obtain ⟨v, hv, h⟩ := Outcome.bind_eq_value_iff.mp h
      obtain rfl := Outcome.value.inj h
      exact .map hbody hm hv
  | mapIndexed body transform =>
    rcases unless_failed_eq_value h with ⟨hbody, hr⟩ | ⟨m, hbody, hm, h⟩
    · exact .mapIndexedFails hbody hr
    · obtain ⟨v, hv, h⟩ := Outcome.bind_eq_value_iff.mp h
      obtain rfl := Outcome.value.inj h
      exact .mapIndexed hbody hm hv
  | mapError body explain =>
    obtain ⟨m, hbody, h⟩ := Outcome.bind_eq_value_iff.mp h
    cases hm : m.failed with
    | false =>
      simp only [hm, Bool.false_eq_true, if_false, Outcome.pure_eq, Outcome.value.injEq] at h
      subst h
      exact .mapErrorPasses hbody hm
    | true =>
      simp only [hm, if_true] at h
      obtain ⟨complaint, hcomplaint, h⟩ := Outcome.bind_eq_value_iff.mp h
      obtain rfl := Outcome.value.inj h
      exact .mapError hbody hm hcomplaint
  | tagged body label =>
    rcases unless_failed_eq_value h with ⟨hbody, hr⟩ | ⟨m, hbody, hm, h⟩
    · exact .taggedFails hbody hr
    · obtain ⟨span, hspan, h⟩ := Outcome.bind_eq_value_iff.mp h
      obtain rfl := Outcome.value.inj h
      exact .tagged hbody hm (Outcome.ofExcept_eq_value_iff.mp hspan)
  | named body name => exact .named h
  | definition name => exact .definition h
  | custom name action => exact .custom h
  | invalid fault => cases h

/-- A property of single steps is a property of runs. `node` holds of every parser that the run can
come to, and the steps may use that the property holds of what is called. -/
theorem run_induction {definitions : Definitions} {node : Parser → Prop}
    {R : Parser → Cursor → Cursor → Prop}
    (hstep : ∀ (A : Parser → Cursor → Cursor → Prop) (p : Parser) (c r : Cursor), node p →
      c.failed = false →
      (∀ q, Calls definitions p q → ∀ c r, c.failed = false → A q c r → R q c r) →
      Step definitions A p c r → R p c r)
    {levels : Nat} {p : Parser} (hp : p.Throughout definitions node) {c r : Cursor}
    (hc : c.failed = false) (h : p.runFor definitions levels c = .value r) : R p c r := by
  induction levels generalizing p c r with
  | zero => cases h
  | succ levels ih =>
    simp only [runFor, hc, Bool.false_eq_true, if_false] at h
    refine hstep (Gives (runFor definitions levels)) p c r hp.here hc ?_ (step_of_runWith h)
    intro q hq c r hc hr
    exact ih (hp.call hq) hc hr

end Parser

end Scannerless
