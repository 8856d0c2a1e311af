import Scannerless.Proofs.Termination.Visits
import Scannerless.Proofs.Yields

/-!
# Parsers that read something

A repetition without a count ends only if its rounds read something. `Consumes` says so of all runs;
the lemmas here find it on the grammar: a text that is not empty consumes, a sequence does if its
first part does, a choice if all its alternatives do. The same first part is what keeps a definition
from coming to another one where it was entered.
-/
namespace Scannerless.Parser

open Relation

variable {definitions : Definitions} {source : Source}

/-- Every success of the parser on the source reads something. -/
def Consumes (definitions : Definitions) (source : Source) (p : Parser) : Prop :=
  ∀ c r, c.source = source → c.failed = false → Runs definitions p c r → r.failed = false →
    c.offset < r.offset

/-- What a repetition without a count repeats reads something with every success. -/
def RepeatsConsuming (definitions : Definitions) (source : Source) : Parser → Prop
  | many body | many1 body | untilStop _ body => Consumes definitions source body
  | _ => True

/-- A run took one of the steps that its level can take. -/
theorem Runs.step {p : Parser} {c r : Cursor} (h : Runs definitions p c r) (hc : c.failed = false) :
    ∃ levels, Step definitions (Gives (runFor definitions levels)) p c r := by
  obtain ⟨levels, hrun⟩ := h
  cases levels with
  | zero => cases hrun
  | succ levels =>
    simp only [runFor, hc, Bool.false_eq_true, if_false] at hrun
    exact ⟨levels, step_of_runWith hrun⟩

/-- A sequence that succeeds stands behind its last part. -/
theorem Step.passes_of_sequence {A : Parser → Cursor → Cursor → Prop} {parts : List Parser}
    {dropNothing : Bool} {c r : Cursor} (h : Step definitions A (.sequence parts dropNothing) c r)
    (hr : r.failed = false) : ∃ rs last, Passes A parts c rs last ∧ r.offset = last.offset := by
  cases h with
  | leaf hact => cases hact
  | sequence hpasses => exact ⟨_, _, hpasses, rfl⟩
  | sequenceFails => cases hr

/-- What a sequence visits stands behind the parts before it. -/
theorem Visits.passes_of_sequence {parts : List Parser} {dropNothing : Bool} {c d : Cursor}
    {q : Parser} (h : Visits definitions (.sequence parts dropNothing, c) (q, d)) :
    ∃ before after rs, parts = before ++ q :: after ∧ Passes (Runs definitions) before c rs d := by
  cases h with
  | sequence hpasses => exact ⟨_, _, _, rfl, hpasses⟩

theorem literal_consumes {text : String} (htext : 0 < (Text.Utf8.encode text).length) :
    Consumes definitions source (.literal text) := by
  intro c r _ hc hrun hr
  obtain ⟨levels, hstep⟩ := hrun.step hc
  cases hstep with
  | leaf hact =>
    cases hact
    revert hr
    simp only [Cursor.matchLiteral]
    split
    · intro _
      rw [Cursor.offset_withResult]
      omega
    · exact nofun

theorem definition_consumes {name : String}
    (h : Consumes definitions source (definitions.find name)) :
    Consumes definitions source (.definition name) := by
  intro c r hsource hc hrun hr
  obtain ⟨levels, hstep⟩ := hrun.step hc
  cases hstep with
  | leaf hact => cases hact
  | definition hbody => exact h c r hsource hc ⟨levels, hbody⟩ hr

theorem choice_consumes {alternatives : List Parser}
    (h : ∀ q ∈ alternatives, Consumes definitions source q) :
    Consumes definitions source (.choice alternatives) := by
  intro c r hsource hc hrun hr
  obtain ⟨levels, hstep⟩ := hrun.step hc
  cases hstep with
  | leaf hact => cases hact
  | choice _ halt hok => exact h _ (by simp) c r hsource hc ⟨levels, halt⟩ hok
  | choiceFails => cases hr

section Sequence

variable {first : Parser} {rest : List Parser} {dropNothing : Bool}
  (hfirst : Consumes definitions source first)
include hfirst

/-- Parts that pass, the first of which consumes, read something together. -/
theorem Passes.reads {parts : List Parser} {c last : Cursor} {rs : List Value}
    (h : Passes (Runs definitions) (first :: parts) c rs last)
    (hlibrary : ∀ part ∈ parts, part.Throughout definitions IsLibrary) (hsource : c.source = source)
    (hc : c.failed = false) : c.offset < last.offset := by
  cases h with
  | @cons _ _ _ next _ _ hpart hnext hrest =>
    have hread : c.offset < next.offset := hfirst c next hsource hc hpart hnext
    have hbehind : next.Advances last := hrest.advances hnext fun part hmem c r hc hrun hr =>
      hrun.advances (hlibrary part hmem) hc hr
    exact Int.lt_of_lt_of_le hread hbehind.le_offset

theorem sequence_consumes
    (hp : (sequence (first :: rest) dropNothing).Throughout definitions IsLibrary) :
    Consumes definitions source (.sequence (first :: rest) dropNothing) := by
  intro c r hsource hc hrun hr
  obtain ⟨levels, hstep⟩ := hrun.step hc
  obtain ⟨rs, last, hpasses, hoffset⟩ := hstep.passes_of_sequence hr
  have hruns := Passes.mono (B := Runs definitions) (fun _ _ _ hgives => ⟨levels, hgives⟩) hpasses
  rw [hoffset]
  exact hruns.reads hfirst (fun part hmem => hp.call (.sequence (List.mem_cons_of_mem _ hmem)))
    hsource hc

/-- Where a sequence has not moved on, it has not come further than its first part has. -/
theorem sequence_comes_to {c : Cursor} {y : Parser × Cursor}
    (hx : Entered definitions source (.sequence (first :: rest) dropNothing, c))
    (h : ReflTransGen (Visits definitions) (.sequence (first :: rest) dropNothing, c) y) :
    y = (.sequence (first :: rest) dropNothing, c) ∨
      ReflTransGen (Visits definitions) (first, c) y ∨ c.offset < y.2.offset := by
  rcases h.cases_head with rfl | ⟨⟨q, d⟩, hvisit, hpath⟩
  · exact .inl rfl
  · obtain ⟨-, hadvances⟩ := entered_of_visits hpath (hvisit.entered hx)
    obtain ⟨before, after, rs, hsplit, hpasses⟩ := hvisit.passes_of_sequence
    cases before with
    | nil =>
      obtain ⟨rfl, -⟩ := List.cons.inj hsplit
      cases hpasses
      exact .inr (.inl hpath)
    | cons head before =>
      obtain ⟨rfl, rfl⟩ := List.cons.inj hsplit
      have hread : c.offset < d.offset := hpasses.reads hfirst
        (fun part hmem => hx.library.call (.sequence (by simp [hmem]))) hx.source_eq hx.ok
      exact .inr (.inr (Int.lt_of_lt_of_le hread hadvances.le_offset))

end Sequence

/-- A choice comes to what its alternatives come to. -/
theorem choice_comes_to {alternatives : List Parser} {c : Cursor} {y : Parser × Cursor}
    (h : ReflTransGen (Visits definitions) (.choice alternatives, c) y) :
    y = (.choice alternatives, c) ∨
      ∃ q ∈ alternatives, ReflTransGen (Visits definitions) (q, c) y := by
  rcases h.cases_head with rfl | ⟨z, hvisit, hpath⟩
  · exact .inl rfl
  · cases hvisit with
    | choice => exact .inr ⟨_, by simp, hpath⟩

/-- A text comes to nothing else. -/
theorem literal_comes_to {text : String} {c : Cursor} {y : Parser × Cursor}
    (h : ReflTransGen (Visits definitions) (.literal text, c) y) : y = (.literal text, c) := by
  rcases h.cases_head with rfl | ⟨z, hvisit, -⟩
  · rfl
  · cases hvisit

/-- A definition comes to what it stands for. -/
theorem definition_comes_to {name : String} {c : Cursor} {y : Parser × Cursor}
    (h : TransGen (Visits definitions) (.definition name, c) y) :
    ReflTransGen (Visits definitions) (definitions.find name, c) y := by
  obtain ⟨z, hvisit, hpath⟩ := TransGen.head'_iff.mp h
  cases hvisit
  exact hpath

end Scannerless.Parser
