import Scannerless.Proofs.Termination.Visits
import Scannerless.Proofs.Yields

/-!
# Where a fault comes from

No loop and no matcher raises a fault of its own. What a run raises is raised by a function of the
author, by a parser that must not be built, or by a span that is refused, and each at a place that
the run visits. As a run does not move back, no span is refused where it starts at an offset of the
source's numbering; then the fault is the author's alone.
-/
namespace Scannerless

namespace Parser

open Outcome

/-- The fault is raised by the author's functions in the parser, or stands in for the parser
itself. -/
def Raises : Parser → Fault → Prop
  | rune accepts _ _, fault | runes accepts _ _, fault => ∃ c, accepts c = .raised fault
  | map _ transform, fault => ∃ v, transform v = .raised fault
  | mapIndexed _ transform, fault => ∃ v offset, transform v offset = .raised fault
  | mapError _ explain, fault => ∃ f, explain f = .raised fault
  | custom _ action, fault => ∃ c, action c = .raised fault
  | invalid reason, fault => reason = fault
  | _, _ => False

/-! A matcher raises what its predicate raises. -/

theorem matchRune_eq_raised {accepts : Char → Outcome Bool} {complaint : Option Complaint}
    {what : String} {cursor : Cursor} {fault : Fault}
    (h : cursor.matchRune accepts complaint what = .raised fault) :
    ∃ c, accepts c = .raised fault := by
  rw [Cursor.matchRune] at h
  cases hread : cursor.readRune with
  | none =>
    rw [hread] at h
    cases h
  | some found =>
    rw [hread] at h
    rcases bind_eq_raised_iff.mp h with hraised | ⟨accepted, _, h⟩
    · exact ⟨found.1, hraised⟩
    · cases accepted <;> cases h

theorem runesWhileFrom_eq_raised {source : Source} {accepts : Char → Outcome Bool} {steps : Nat}
    {offset : Int} {runes : List Char} {fault : Fault}
    (h : source.runesWhileFrom accepts steps offset runes = .raised fault) :
    ∃ c, accepts c = .raised fault := by
  induction steps generalizing offset runes with
  | zero => cases h
  | succ steps ih =>
    rw [Source.runesWhileFrom] at h
    cases hread : source.readRune offset with
    | none =>
      rw [hread] at h
      cases h
    | some found =>
      rw [hread] at h
      rcases bind_eq_raised_iff.mp h with hraised | ⟨accepted, _, h⟩
      · exact ⟨found.1, hraised⟩
      · cases accepted with
        | true => exact ih h
        | false => cases h

theorem matchRunes_eq_raised {accepts : Char → Outcome Bool} {complaint : Option Complaint}
    {what : String} {cursor : Cursor} {fault : Fault}
    (h : cursor.matchRunes accepts complaint what = .raised fault) :
    ∃ c, accepts c = .raised fault := by
  rcases bind_eq_raised_iff.mp h with hraised | ⟨⟨runes, stop⟩, _, h⟩
  · exact runesWhileFrom_eq_raised hraised
  · cases runes <;> cases h

/-! A loop raises what one of its attempts raises, behind the attempts before it. -/

section Loops

variable {attempt : Parser → Cursor → Outcome Cursor} {fault : Fault} {current : Cursor}
  {results : List Value}

theorem runParts_eq_raised {dropNothing : Bool} {entry : Cursor} {parts : List Parser}
    (h : Cursor.runParts attempt dropNothing entry parts current results = .raised fault) :
    ∃ before part after rs last, parts = before ++ part :: after ∧
      Passes (Gives attempt) before current rs last ∧ attempt part last = .raised fault := by
  induction parts generalizing current results with
  | nil => cases h
  | cons part rest ih =>
    rw [Cursor.runParts_cons] at h
    rcases bind_eq_raised_iff.mp h with hpart | ⟨next, hpart, h⟩
    · exact ⟨[], part, rest, [], current, rfl, .nil current, hpart⟩
    · cases herror : next.error with
      | some e =>
        simp only [herror] at h
        cases h
      | none =>
        have hrest : ∃ results, Cursor.runParts attempt dropNothing entry rest next results =
            .raised fault := by
          simp only [herror] at h
          split at h <;> exact ⟨_, h⟩
        obtain ⟨results, hrest⟩ := hrest
        obtain ⟨before, stuck, after, rs, last, hsplit, hpasses, hraised⟩ := ih hrest
        refine ⟨part :: before, stuck, after, next.result :: rs, last, ?_,
          .cons hpart (Cursor.not_failed_iff.mpr herror) hpasses, hraised⟩
        rw [hsplit, List.cons_append]

theorem runAlternatives_eq_raised {entry : Cursor} {alternatives : List Parser}
    (h : entry.runAlternatives attempt alternatives = .raised fault) :
    ∃ before alternative after, alternatives = before ++ alternative :: after ∧
      (∀ q ∈ before, ∃ f, Gives attempt q entry f ∧ f.failed = true) ∧
      attempt alternative entry = .raised fault := by
  induction alternatives with
  | nil => cases h
  | cons alternative rest ih =>
    rw [Cursor.runAlternatives_cons] at h
    rcases bind_eq_raised_iff.mp h with halt | ⟨next, halt, h⟩
    · exact ⟨[], alternative, rest, rfl, nofun, halt⟩
    · cases hnext : next.failed with
      | false => simp [hnext] at h
      | true =>
        simp only [hnext, if_true] at h
        obtain ⟨before, raising, after, hsplit, hbefore, hraised⟩ := ih h
        refine ⟨alternative :: before, raising, after, by rw [hsplit, List.cons_append], ?_,
          hraised⟩
        exact List.forall_mem_cons.mpr ⟨⟨next, halt, hnext⟩, hbefore⟩

variable {body stop : Parser}

theorem repeatAll_eq_raised {steps : Nat}
    (h : Cursor.repeatAll (attempt body) steps current results = .raised fault) :
    ∃ k rs last, Passes (Gives attempt) (List.replicate k body) current rs last ∧
      attempt body last = .raised fault := by
  induction steps generalizing current results with
  | zero => cases h
  | succ steps ih =>
    rw [Cursor.repeatAll_succ] at h
    rcases bind_eq_raised_iff.mp h with hbody | ⟨next, hbody, h⟩
    · exact ⟨0, [], current, .nil current, hbody⟩
    · cases hnext : next.failed with
      | true => simp [hnext] at h
      | false =>
        simp only [hnext, Bool.false_eq_true, if_false] at h
        obtain ⟨k, rs, last, hpasses, hraised⟩ := ih h
        exact ⟨k + 1, next.result :: rs, last, .cons hbody hnext hpasses, hraised⟩

theorem repeatExactly_eq_raised {count left : Nat} {entry : Cursor}
    (h : Cursor.repeatExactly (attempt body) count entry left current results = .raised fault) :
    ∃ k rs last, k < left ∧ Passes (Gives attempt) (List.replicate k body) current rs last ∧
      attempt body last = .raised fault := by
  induction left generalizing current results with
  | zero => cases h
  | succ left ih =>
    rw [Cursor.repeatExactly_succ] at h
    rcases bind_eq_raised_iff.mp h with hbody | ⟨next, hbody, h⟩
    · exact ⟨0, [], current, by omega, .nil current, hbody⟩
    · cases hnext : next.failed with
      | true => simp [hnext] at h
      | false =>
        simp only [hnext, Bool.false_eq_true, if_false] at h
        obtain ⟨k, rs, last, hk, hpasses, hraised⟩ := ih h
        exact ⟨k + 1, next.result :: rs, last, by omega, .cons hbody hnext hpasses, hraised⟩

theorem repeatUpTo_eq_raised {left : Nat}
    (h : Cursor.repeatUpTo (attempt body) left current results = .raised fault) :
    ∃ k rs last, k < left ∧ Passes (Gives attempt) (List.replicate k body) current rs last ∧
      attempt body last = .raised fault := by
  induction left generalizing current results with
  | zero => cases h
  | succ left ih =>
    rw [Cursor.repeatUpTo_succ] at h
    rcases bind_eq_raised_iff.mp h with hbody | ⟨next, hbody, h⟩
    · exact ⟨0, [], current, by omega, .nil current, hbody⟩
    · cases hnext : next.failed with
      | true =>
        simp only [hnext, if_true] at h
        split at h <;> cases h
      | false =>
        simp only [hnext, Bool.false_eq_true, if_false] at h
        obtain ⟨k, rs, last, hk, hpasses, hraised⟩ := ih h
        exact ⟨k + 1, next.result :: rs, last, by omega, .cons hbody hnext hpasses, hraised⟩

theorem repeatUntil_eq_raised {steps : Nat}
    (h : Cursor.repeatUntil (attempt stop) (attempt body) steps current results = .raised fault) :
    ∃ k rs last, Passes (Pending (Gives attempt) stop) (List.replicate k body) current rs last ∧
      (attempt stop last = .raised fault ∨
        ∃ stopped, Gives attempt stop last stopped ∧ stopped.failed = true ∧
          attempt body last = .raised fault) := by
  induction steps generalizing current results with
  | zero => cases h
  | succ steps ih =>
    rw [Cursor.repeatUntil_succ] at h
    rcases bind_eq_raised_iff.mp h with hstop | ⟨stopped, hstop, h⟩
    · exact ⟨0, [], current, .nil current, .inl hstop⟩
    · cases hstopped : stopped.failed with
      | false => simp [hstopped] at h
      | true =>
        simp only [hstopped, if_true] at h
        rcases bind_eq_raised_iff.mp h with hbody | ⟨next, hbody, h⟩
        · exact ⟨0, [], current, .nil current, .inr ⟨stopped, hstop, hstopped, hbody⟩⟩
        · cases hnext : next.failed with
          | true => simp [hnext] at h
          | false =>
            simp only [hnext, Bool.false_eq_true, if_false] at h
            obtain ⟨k, rs, last, hpasses, hraised⟩ := ih h
            exact ⟨k + 1, next.result :: rs, last,
              .cons ⟨⟨stopped, hstop, hstopped⟩, hbody⟩ hnext hpasses, hraised⟩

end Loops

/-- A level that goes on only behind a success, and raises. -/
theorem unless_failed_eq_raised {x : Outcome Cursor} {go : Cursor → Outcome Cursor} {fault : Fault}
    (h : (x >>= fun m => if m.failed then pure m else go m) = .raised fault) :
    x = .raised fault ∨ ∃ m, x = .value m ∧ m.failed = false ∧ go m = .raised fault := by
  rcases bind_eq_raised_iff.mp h with hx | ⟨m, hx, h⟩
  · exact .inl hx
  · cases hm : m.failed with
    | true => simp [hm] at h
    | false =>
      simp only [hm, Bool.false_eq_true, if_false] at h
      exact .inr ⟨m, hx, hm, h⟩

variable {definitions : Definitions} {p : Parser} {c : Cursor} {fault : Fault}

/-- The token's span is refused, with this fault. -/
def RefusesSpan (definitions : Definitions) (x : Parser × Cursor) (fault : Fault) : Prop :=
  ∃ body label m, x.1 = .tagged body label ∧ Runs definitions body x.2 m ∧ m.failed = false ∧
    Span.between x.2.offset m.offset = .error fault

/-- A fault is raised in the parser itself, or one visit on. -/
theorem raised_visits {levels : Nat} (hc : c.failed = false)
    (h : p.runFor definitions (levels + 1) c = .raised fault) :
    p.Raises fault ∨ RefusesSpan definitions (p, c) fault ∨
      ∃ q d, Visits definitions (p, c) (q, d) ∧ q.runFor definitions levels d = .raised fault := by
  simp only [runFor, hc, Bool.false_eq_true, if_false] at h
  have hruns : ∀ q c r, Gives (runFor definitions levels) q c r → Runs definitions q c r :=
    fun _ _ _ hgives => ⟨levels, hgives⟩
  -- Most parsers only hand on what a visit raises.
  have visited : ∀ q d, Visits definitions (p, c) (q, d) →
      q.runFor definitions levels d = .raised fault →
      p.Raises fault ∨ RefusesSpan definitions (p, c) fault ∨
      ∃ q d, Visits definitions (p, c) (q, d) ∧ q.runFor definitions levels d = .raised fault :=
    fun q d hvisit hraised => .inr (.inr ⟨q, d, hvisit, hraised⟩)
  cases p with
  | rune => exact .inl (matchRune_eq_raised h)
  | runes => exact .inl (matchRunes_eq_raised h)
  | runeCount | literal | foldedLiteral | succeed | fail | startOfInput | endOfInput
  | startOfLine =>
    cases h
  | sequence parts dropNothing =>
    obtain ⟨before, part, after, rs, last, rfl, hpasses, hraised⟩ := runParts_eq_raised h
    exact visited part last (.sequence (hpasses.mono hruns)) hraised
  | choice alternatives =>
    obtain ⟨before, alternative, after, rfl, hbefore, hraised⟩ := runAlternatives_eq_raised h
    refine visited alternative c (.choice fun q hq => ?_) hraised
    obtain ⟨f, hf, hfailed⟩ := hbefore q hq
    exact ⟨f, hruns _ _ _ hf, hfailed⟩
  | chain first next =>
    rcases unless_failed_eq_raised h with hraised | ⟨m, hfirst, hm, hraised⟩
    · exact visited first c .chainFirst hraised
    · exact visited _ m (.chainNext (hruns _ _ _ hfirst) hm) hraised
  | many body =>
    rcases bind_eq_raised_iff.mp h with hrepeat | ⟨_, _, h⟩
    · obtain ⟨k, rs, last, hpasses, hraised⟩ := repeatAll_eq_raised hrepeat
      exact visited body last (.many (hpasses.mono hruns)) hraised
    · cases h
  | many1 body =>
    rcases bind_eq_raised_iff.mp h with hrepeat | ⟨collected, _, h⟩
    · obtain ⟨k, rs, last, hpasses, hraised⟩ := repeatAll_eq_raised hrepeat
      exact visited body last (.many1 (hpasses.mono hruns)) hraised
    · simp only at h
      split at h <;> cases h
  | exactly count body =>
    obtain ⟨k, rs, last, hk, hpasses, hraised⟩ := repeatExactly_eq_raised h
    exact visited body last (.exactly hk (hpasses.mono hruns)) hraised
  | upTo count body =>
    simp only [runWith] at h
    split at h
    · cases h
    · obtain ⟨k, rs, last, hk, hpasses, hraised⟩ := repeatUpTo_eq_raised h
      exact visited body last (.upTo hk (hpasses.mono hruns)) hraised
  | untilStop stop body =>
    obtain ⟨k, rs, last, hpasses, hraised | ⟨stopped, hstop, hs, hraised⟩⟩ :=
      repeatUntil_eq_raised h
    · exact visited stop last (.untilStop (hpasses.mono fun _ _ _ => Pending.mono hruns)) hraised
    · have hrounds := hpasses.mono fun _ _ _ => Pending.mono hruns
      exact visited body last (.untilBody hrounds (hruns _ _ _ hstop) hs) hraised
  | optional body =>
    rcases bind_eq_raised_iff.mp h with hraised | ⟨_, _, h⟩
    · exact visited body c .optional hraised
    · cases h
  | peek body =>
    rcases bind_eq_raised_iff.mp h with hraised | ⟨_, _, h⟩
    · exact visited body c .peek hraised
    · cases h
  | map body transform =>
    rcases unless_failed_eq_raised h with hraised | ⟨m, _, _, h⟩
    · exact visited body c .map hraised
    · rcases bind_eq_raised_iff.mp h with hraised | ⟨_, _, h⟩
      · exact .inl ⟨m.result, hraised⟩
      · cases h
  | mapIndexed body transform =>
    rcases unless_failed_eq_raised h with hraised | ⟨m, _, _, h⟩
    · exact visited body c .mapIndexed hraised
    · rcases bind_eq_raised_iff.mp h with hraised | ⟨_, _, h⟩
      · exact .inl ⟨m.result, c.offset, hraised⟩
      · cases h
  | mapError body explain =>
    rcases bind_eq_raised_iff.mp h with hraised | ⟨m, _, h⟩
    · exact visited body c .mapError hraised
    · cases hm : m.failed with
      | false => simp [hm] at h
      | true =>
        simp only [hm, if_true] at h
        rcases bind_eq_raised_iff.mp h with hraised | ⟨_, _, h⟩
        · exact .inl ⟨m, hraised⟩
        · cases h
  | tagged body label =>
    rcases unless_failed_eq_raised h with hraised | ⟨m, hbody, hm, h⟩
    · exact visited body c .tagged hraised
    · rcases bind_eq_raised_iff.mp h with hspan | ⟨_, _, h⟩
      · exact .inr
          (.inl ⟨body, label, m, rfl, hruns _ _ _ hbody, hm, ofExcept_eq_raised_iff.mp hspan⟩)
      · cases h
  | named body name => exact visited body c .named h
  | definition name => exact visited _ c .definition h
  | custom name action => exact .inl ⟨c, h⟩
  | invalid reason => exact .inl (Outcome.raised.inj h)

/-- A span between an offset of the source's numbering and a later one is accepted. -/
theorem not_refusesSpan {x : Parser × Cursor} (hx : x.1.Throughout definitions IsLibrary)
    (hc : x.2.failed = false) (hoffset : 0 ≤ x.2.offset) : ¬ RefusesSpan definitions x fault := by
  rintro ⟨body, label, m, htagged, hbody, hm, hspan⟩
  rw [htagged] at hx
  have hadvances := hbody.advances (hx.call .tagged) hc hm
  rw [Span.between, dif_pos hoffset, dif_pos hadvances.le_offset] at hspan
  cases hspan

/-- From an offset of the source's numbering on, the library raises nothing. A fault is raised by
the author's functions, or by a parser that must not be built. -/
theorem raised_by_author {levels : Nat} (hp : p.Throughout definitions IsLibrary)
    (hoffset : 0 ≤ c.offset) (h : p.runFor definitions levels c = .raised fault) :
    ∃ q, Relation.ReflTransGen (Calls definitions) p q ∧ q.Raises fault := by
  induction levels generalizing p c with
  | zero => cases h
  | succ levels ih =>
    cases hc : c.failed with
    | true => simp [runFor, hc] at h
    | false =>
      rcases raised_visits hc h with hraises | hrefuses | ⟨q, d, hvisit, hraised⟩
      · exact ⟨p, .refl, hraises⟩
      · exact (not_refusesSpan hp hc hoffset hrefuses).elim
      · have hadvances := (hvisit.advances hp hc).1.le_offset
        obtain ⟨raising, hreaches, hraises⟩ :=
          ih (hp.call hvisit.calls) (Int.le_trans hoffset hadvances) hraised
        exact ⟨raising, .head hvisit.calls hreaches, hraises⟩

end Parser

end Scannerless
