import Scannerless.Proofs.Progress

/-!
# A parse stays on its source

No parser of the library puts a cursor on another source, whether it succeeds or fails. A function
of the author could; where it does not, no parser that is made with it does.
-/
namespace Scannerless.Parser

/-- The author's own function, if the parser is one, leaves the cursor on its source. -/
def KeepsSource : Parser → Prop
  | custom _ action => ∀ c r, action c = .value r → r.source = c.source
  | _ => True

/-- The parsers of the library do. -/
theorem IsLibrary.keepsSource {p : Parser} (h : p.IsLibrary) : p.KeepsSource := by
  cases p with
  | custom => exact h.elim
  | _ => trivial

variable {definitions : Definitions} {A : Parser → Cursor → Cursor → Prop} {p : Parser}
  {c r : Cursor}

theorem Acts.keeps_source (h : Acts p c r) (hc : c.failed = false) : r.source = c.source := by
  rcases h.advances hc with (⟨-, hadvances⟩ | ⟨e, rfl, -⟩) | ⟨d, -, rfl⟩
  · exact hadvances.source_eq
  · exact Cursor.source_withError ..
  · exact Cursor.source_withError ..

theorem Passes.keeps_source_replicate {body : Parser} {k : Nat} {last : Cursor} {rs : List Value}
    (h : Passes A (List.replicate k body) c rs last) (hc : c.failed = false)
    (hA : ∀ c r, c.failed = false → A body c r → r.source = c.source) : last.source = c.source :=
  h.respects_replicate (R := fun c r => r.source = c.source) (fun _ => rfl)
    (fun _ _ _ hab hbc => hbc.trans hab) hc fun c r hc hr _ => hA c r hc hr

/-- One level stays on the source if what it calls does. -/
theorem Step.keeps_source (hnode : p.KeepsSource) (hc : c.failed = false)
    (hA : ∀ q, Calls definitions p q → ∀ c r, c.failed = false → A q c r → r.source = c.source)
    (h : Step definitions A p c r) : r.source = c.source := by
  cases h with
  | leaf hact => exact hact.keeps_source hc
  | choice _ halt _ => exact hA _ (.choice (by simp)) c r hc halt
  | chain hfirst hm hnext =>
    exact (hA _ (.chainNext _) _ _ hm hnext).trans (hA _ .chainFirst _ _ hc hfirst)
  | chainFails hfirst => exact hA _ .chainFirst _ _ hc hfirst
  | many hpasses => exact hpasses.keeps_source_replicate hc (hA _ .many)
  | many1 hpasses => exact hpasses.keeps_source_replicate hc (hA _ .many1)
  | upToAll hpasses | upToSome _ hpasses => exact hpasses.keeps_source_replicate hc (hA _ .upTo)
  | upToFails hbody => exact hA _ .upTo _ _ hc hbody
  | untilStop hpasses =>
    exact hpasses.keeps_source_replicate hc fun c r hc hround => hA _ .untilBody c r hc hround.2
  | untilStopFails hpasses hstop =>
    have hlast := hpasses.keeps_source_replicate hc fun c r hc hround =>
      hA _ .untilBody c r hc hround.2
    exact (hA _ .untilStop _ _ (hpasses.failed_eq_false hc) hstop).trans hlast
  | optional hbody => exact hA _ .optional c r hc hbody
  | map hbody | mapFails hbody =>
    have hkept := hA _ .map _ _ hc hbody
    exact hkept
  | mapIndexed hbody | mapIndexedFails hbody =>
    have hkept := hA _ .mapIndexed _ _ hc hbody
    exact hkept
  | mapError hbody | mapErrorPasses hbody =>
    have hkept := hA _ .mapError _ _ hc hbody
    exact hkept
  | tagged hbody | taggedFails hbody =>
    have hkept := hA _ .tagged _ _ hc hbody
    exact hkept
  | named hbody => exact hA _ .named c r hc hbody
  | definition hbody => exact hA _ .definition c r hc hbody
  | custom haction => exact hnode c r haction
  | sequence | sequenceFails | choiceFails | many1Fails | exactly | exactlyFails | upToNone
    | optionalSkips | peek | peekFails => rfl

theorem run_keeps_source {levels : Nat} (hp : p.Throughout definitions KeepsSource)
    (h : p.runFor definitions levels c = .value r) : r.source = c.source := by
  cases hc : c.failed with
  | false =>
    exact run_induction (R := fun _ c r => r.source = c.source)
      (fun _ _ _ _ hnode hc hA hstep => hstep.keeps_source hnode hc hA) hp hc h
  | true =>
    cases levels with
    | zero => cases h
    | succ levels =>
      simp only [runFor, hc, if_true, Outcome.value.injEq] at h
      rw [h]

end Scannerless.Parser
