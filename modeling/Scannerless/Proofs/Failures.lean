import Scannerless.Proofs.Progress
import Scannerless.Proofs.Reports

/-!
# Failures point inside the input

The offsets of a failed parse stand in order: where the parse was entered, where the failed cursor
stands, where the failure was found, and the end of the source. Sequences keep the failure of a part
and go back to the entry; chains and repetitions until a stop hand on a cursor that has moved. The
order survives all of them because what succeeded before the failure only advanced.
-/
namespace Scannerless

/-- The cursor `f` failed with `e`, on the way from `c` to the end of its source. -/
structure Cursor.FailsInside (c f : Cursor) (e : Diagnostic) : Prop where
  source_eq : f.source = c.source
  le_offset : c.offset ≤ f.offset
  offset_le : f.offset ≤ e.offset
  error_le : e.offset ≤ max c.offset c.source.size

namespace Cursor.FailsInside

variable {c m f : Cursor} {e : Diagnostic}

theorem stays (he : e.offset = c.offset) : c.FailsInside (c.withError e) e :=
  ⟨rfl, Int.le_refl _, Int.le_of_eq he.symm, by omega⟩

/-- A failure behind a success is a failure from the start of the success. -/
theorem after (hadvances : c.Advances m) (h : m.FailsInside f e) : c.FailsInside f e := by
  have h₁ := hadvances.le_offset
  have h₂ := hadvances.offset_le
  have h₃ := h.le_offset
  have h₄ := h.error_le
  rw [hadvances.source_eq] at h₄
  exact ⟨h.source_eq.trans hadvances.source_eq, by omega, h.offset_le, by omega⟩

/-- The failure is kept and the cursor goes back to the entry. -/
theorem rewound (h : c.FailsInside f e) : c.FailsInside (c.withError e) e :=
  ⟨rfl, Int.le_refl _, Int.le_trans h.le_offset h.offset_le, h.error_le⟩

/-- Another failure in place of the first, no earlier than the cursor and no later than the
first. -/
theorem replaced (h : c.FailsInside f e) {d : Diagnostic} (hlow : f.offset ≤ d.offset)
    (hhigh : d.offset ≤ e.offset) : c.FailsInside (f.withError d) d :=
  ⟨h.source_eq, h.le_offset, hlow, Int.le_trans hhigh h.error_le⟩

end Cursor.FailsInside

namespace Parser

/-- A parser of the library whose failures are anchored where they happen: no failure is given as a
whole record, and a failure that is replaced by a record keeps the offset of the failed cursor or
that of its failure. -/
def ReportsInside : Parser → Prop
  | custom _ _ => False
  | fail (.record _) => False
  | mapError _ explain => ∀ f d e, f.error = some e → explain f = .value (.record d) →
      d.offset = f.offset ∨ d.offset = e.offset
  | _ => True

theorem ReportsInside.isLibrary : ∀ {p : Parser}, p.ReportsInside → p.IsLibrary := by
  intro p h
  cases p with
  | custom name action => exact h
  | _ => trivial

variable {definitions : Definitions} {A : Parser → Cursor → Cursor → Prop} {p : Parser}
  {c r : Cursor}

/-- One level fails inside the source if what it calls does, and advances where it succeeds. -/
theorem Step.failsInside (hnode : p.ReportsInside) (hc : c.failed = false)
    (hS : ∀ q, Calls definitions p q → ∀ c r, c.failed = false → A q c r → r.failed = false →
      c.Advances r)
    (hF : ∀ q, Calls definitions p q → ∀ c r, c.failed = false → A q c r → ∀ e, r.error = some e →
      c.FailsInside r e)
    (h : Step definitions A p c r) {e : Diagnostic} (he : r.error = some e) :
    c.FailsInside r e := by
  cases h with
  | leaf hact =>
    rcases hact.advances hc with (⟨hr, _⟩ | ⟨d, hd, hoffset⟩) | ⟨d, rfl, _⟩
    · rw [Cursor.not_failed_iff.mp hr] at he; cases he
    · rw [hd] at he ⊢
      obtain rfl := Option.some.inj he
      exact .stays hoffset
    · exact hnode.elim
  | sequenceFails hpasses hpart hfailed =>
    obtain rfl := Option.some.inj he
    have hlast := hpasses.advances hc fun part hmem => hS part (.sequence (by simp [hmem]))
    have hok := hpasses.failed_eq_false hc
    exact (Cursor.FailsInside.after hlast
      (hF _ (.sequence (by simp)) _ _ hok hpart _ hfailed)).rewound
  | choiceFails | many1Fails | exactlyFails | peekFails =>
    obtain rfl := Option.some.inj he
    exact .stays rfl
  | chain hfirst hm hnext =>
    have hmiddle := hS _ .chainFirst _ _ hc hfirst hm
    exact .after hmiddle (hF _ (.chainNext _) _ _ hm hnext e he)
  | chainFails hfirst _ => exact hF _ .chainFirst _ _ hc hfirst e he
  | upToFails hbody _ => exact hF _ .upTo _ _ hc hbody e he
  | untilStopFails hpasses hstop _ _ _ =>
    have hlast := hpasses.advances_replicate hc fun c r hc hround =>
      hS _ .untilBody c r hc hround.2
    exact .after hlast (hF _ .untilStop _ _ (hpasses.failed_eq_false hc) hstop e he)
  | mapFails hbody _ => exact hF _ .map _ _ hc hbody e he
  | mapIndexedFails hbody _ => exact hF _ .mapIndexed _ _ hc hbody e he
  | taggedFails hbody _ => exact hF _ .tagged _ _ hc hbody e he
  | @mapError _ explain _ f complaint hbody hf hcomplaint =>
    obtain ⟨first, hfirst⟩ := Cursor.failed_iff.mp hf
    have hinside := hF _ .mapError _ _ hc hbody first hfirst
    obtain rfl := Option.some.inj he
    have horder := hinside.offset_le
    cases complaint with
    | message text => exact hinside.replaced (Int.le_refl _) horder
    | record d =>
      rcases hnode f d first hfirst hcomplaint with hd | hd
      · exact hinside.replaced (Int.le_of_eq hd.symm) (Int.le_trans (Int.le_of_eq hd) horder)
      · exact hinside.replaced (Int.le_trans horder (Int.le_of_eq hd.symm)) (Int.le_of_eq hd)
  | named hbody => exact hF _ .named _ _ hc hbody e he
  | definition hbody => exact hF _ .definition _ _ hc hbody e he
  | custom => exact hnode.elim
  -- What is left are the ways in which a level succeeds.
  | choice _ _ hr | optional _ hr | mapErrorPasses _ hr =>
    rw [Cursor.not_failed_iff.mp hr] at he; cases he
  | sequence | exactly | upToNone | optionalSkips | peek =>
    have hnone : c.error = some e := he
    rw [Cursor.not_failed_iff.mp hc] at hnone; cases hnone
  | many hpasses | many1 hpasses | upToAll hpasses | upToSome _ hpasses | untilStop hpasses =>
    have hnone := Cursor.not_failed_iff.mp (hpasses.failed_eq_false hc)
    rw [Cursor.error_withResult, hnone] at he; cases he
  | map _ hm | mapIndexed _ hm | tagged _ hm =>
    rw [Cursor.error_withResult, Cursor.not_failed_iff.mp hm] at he; cases he

theorem run_failsInside {levels : Nat} (hp : p.Throughout definitions ReportsInside)
    (hc : c.failed = false) (h : p.runFor definitions levels c = .value r) {e : Diagnostic}
    (he : r.error = some e) : c.FailsInside r e := by
  refine (run_induction (R := fun _ c r => (r.failed = false → c.Advances r) ∧
    ∀ e, r.error = some e → c.FailsInside r e) ?_ hp hc h).2 e he
  intro A p c r hnode hc hA hstep
  have hS : ∀ q, Calls definitions p q → ∀ c r, c.failed = false → A q c r → r.failed = false →
      c.Advances r := fun q hq c r hc ha => (hA q hq c r hc ha).1
  have hF : ∀ q, Calls definitions p q → ∀ c r, c.failed = false → A q c r →
      ∀ e, r.error = some e → c.FailsInside r e := fun q hq c r hc ha => (hA q hq c r hc ha).2
  exact ⟨hstep.advances hnode.isLibrary hc hS, fun e he => hstep.failsInside hnode hc hS hF he⟩

/-- A run that fails does so between its entry and the end of the source, and the failure can be
reported in every form: described in a line, shown with any number of lines around it, and
raised. -/
theorem run_fails_reportably {levels : Nat} (hp : p.Throughout definitions ReportsInside)
    (hc : c.failed = false) (hstart : 0 ≤ c.offset) (h : p.runFor definitions levels c = .value r)
    (hr : r.failed = true) :
    ∃ e, r.error = some e ∧
      (c.offset ≤ r.offset ∧ r.offset ≤ e.offset ∧ e.offset ≤ max c.offset c.source.size) ∧
      (∃ text, r.describe = .ok text) ∧ (∀ context : Int, ∃ text, r.report context = .ok text) ∧
      ∃ line column, r.unwrap = .error (.parseFailed e line column) := by
  obtain ⟨e, he⟩ := Cursor.failed_iff.mp hr
  have hinside := run_failsInside hp hc h he
  have hoffset : 0 ≤ e.offset := by
    have h₁ := hinside.le_offset
    have h₂ := hinside.offset_le
    omega
  refine ⟨e, he, ⟨hinside.le_offset, hinside.offset_le, hinside.error_le⟩, ?_, ?_, ?_⟩
  · exact Cursor.describe_isOk he hoffset
  · exact Cursor.report_isOk he
  · exact Cursor.unwrap_eq_parseFailed he hoffset

/-- Two parentheses are open where the source ends. -/
theorem run_fails_reportably_nested :
    ∃ r e, runFor nested 10 (.definition "nested") (.ofSource (.ofBytes #[0x28, 0x28])) = .value r ∧
      r.error = some e ∧ (0 ≤ r.offset ∧ r.offset ≤ e.offset ∧ e.offset ≤ 2) ∧
      (∃ text, r.describe = .ok text) ∧ (∀ context : Int, ∃ text, r.report context = .ok text) ∧
      ∃ line column, r.unwrap = .error (.parseFailed e line column) := by
  have hp : (definition "nested").Throughout nested ReportsInside :=
    nested_throughout trivial (fun _ => trivial) (fun _ => trivial) fun _ => trivial
  obtain ⟨r, hrun, hr⟩ :
      ∃ r, runFor nested 10 (.definition "nested") (.ofSource (.ofBytes #[0x28, 0x28])) = .value r ∧
        r.failed = true := ⟨_, rfl, rfl⟩
  obtain ⟨e, he, hrest⟩ := run_fails_reportably hp rfl (by decide) hrun hr
  exact ⟨r, e, hrun, he, hrest⟩

end Parser

end Scannerless
