import Scannerless.Proofs.Progress

/-!
# What a run visits

A run of a parser at a cursor runs other parsers at other cursors. `Visits` lists which, one level
down, from what the earlier ones among them gave: a part of a sequence is visited behind the parts
before it, a round of a repetition behind the earlier rounds. A visit never goes back, so one that
is not further on has not moved at all.
-/
namespace Scannerless.Parser

/-- Some number of levels gives `r`. -/
def Runs (definitions : Definitions) (p : Parser) (c r : Cursor) : Prop :=
  ∃ levels, p.runFor definitions levels c = .value r

/-- `Visits definitions (p, c) (q, d)`: one level of `p` at `c` runs `q` at `d`. -/
inductive Visits (definitions : Definitions) : Parser × Cursor → Parser × Cursor → Prop where
  | sequence {before part after dropNothing c rs last}
    (h : Passes (Runs definitions) before c rs last) :
      Visits definitions (.sequence (before ++ part :: after) dropNothing, c) (part, last)
  | choice {before alternative after c}
      (h : ∀ q ∈ before, ∃ f, Runs definitions q c f ∧ f.failed = true) :
      Visits definitions (.choice (before ++ alternative :: after), c) (alternative, c)
  | chainFirst {first next c} : Visits definitions (.chain first next, c) (first, c)
  | chainNext {first next c m} (hfirst : Runs definitions first c m) (hm : m.failed = false) :
      Visits definitions (.chain first next, c) (next m.result, m)
  | many {body c k rs last} (h : Passes (Runs definitions) (List.replicate k body) c rs last) :
      Visits definitions (.many body, c) (body, last)
  | many1 {body c k rs last} (h : Passes (Runs definitions) (List.replicate k body) c rs last) :
      Visits definitions (.many1 body, c) (body, last)
  | exactly {count body c k rs last} (hk : k < count)
      (h : Passes (Runs definitions) (List.replicate k body) c rs last) :
      Visits definitions (.exactly count body, c) (body, last)
  | upTo {count body c k rs last} (hk : k < count)
      (h : Passes (Runs definitions) (List.replicate k body) c rs last) :
      Visits definitions (.upTo count body, c) (body, last)
  | untilStop {stop body c k rs last}
      (h : Passes (Pending (Runs definitions) stop) (List.replicate k body) c rs last) :
      Visits definitions (.untilStop stop body, c) (stop, last)
  | untilBody {stop body c k rs last stopped}
      (h : Passes (Pending (Runs definitions) stop) (List.replicate k body) c rs last)
      (hstop : Runs definitions stop last stopped) (hs : stopped.failed = true) :
      Visits definitions (.untilStop stop body, c) (body, last)
  | optional {body c} : Visits definitions (.optional body, c) (body, c)
  | peek {body c} : Visits definitions (.peek body, c) (body, c)
  | map {body transform c} : Visits definitions (.map body transform, c) (body, c)
  | mapIndexed {body transform c} : Visits definitions (.mapIndexed body transform, c) (body, c)
  | mapError {body explain c} : Visits definitions (.mapError body explain, c) (body, c)
  | tagged {body label c} : Visits definitions (.tagged body label, c) (body, c)
  | named {body name c} : Visits definitions (.named body name, c) (body, c)
  | definition {name c} : Visits definitions (.definition name, c) (definitions.find name, c)

/-- A parser of the library, all that it can come to included, at a cursor of the source that has
not failed. -/
structure Entered (definitions : Definitions) (source : Source) (x : Parser × Cursor) : Prop where
  library : x.1.Throughout definitions IsLibrary
  source_eq : x.2.source = source
  ok : x.2.failed = false

/-- The bytes from the cursor to the end of its source. -/
def bytesLeft (c : Cursor) : Nat := (c.source.size - c.offset).toNat

theorem bytesLeft_lt {c d : Cursor} (h : c.Advances d) (hlt : c.offset < d.offset) :
    bytesLeft d < bytesLeft c := by
  have hle := h.offset_le
  unfold bytesLeft
  rw [h.source_eq]
  omega

theorem bytesLeft_eq {c d : Cursor} (h : c.Advances d) (heq : d.offset = c.offset) :
    bytesLeft d = bytesLeft c := by
  rw [bytesLeft, bytesLeft, h.source_eq, heq]

variable {definitions : Definitions} {source : Source} {x y : Parser × Cursor}

theorem Runs.advances {p : Parser} {c r : Cursor} (hp : p.Throughout definitions IsLibrary)
    (hc : c.failed = false) (h : Runs definitions p c r) (hr : r.failed = false) :
    c.Advances r := by
  obtain ⟨levels, hrun⟩ := h
  exact run_advances hp hc hrun hr

namespace Visits

theorem calls (h : Visits definitions x y) : Calls definitions x.1 y.1 := by
  cases h with
  | sequence => exact .sequence (by simp)
  | choice => exact .choice (by simp)
  | chainFirst => exact .chainFirst
  | chainNext => exact .chainNext _
  | many => exact .many
  | many1 => exact .many1
  | exactly => exact .exactly
  | upTo => exact .upTo
  | untilStop => exact .untilStop
  | untilBody => exact .untilBody
  | optional => exact .optional
  | peek => exact .peek
  | map => exact .map
  | mapIndexed => exact .mapIndexed
  | mapError => exact .mapError
  | tagged => exact .tagged
  | named => exact .named
  | definition => exact .definition

/-- A visit is made at a cursor that has not failed, on the way to the end of the source. -/
theorem advances (h : Visits definitions x y) (hx : x.1.Throughout definitions IsLibrary)
    (hc : x.2.failed = false) : x.2.Advances y.2 ∧ y.2.failed = false := by
  have hcalled : ∀ q, Calls definitions x.1 q → ∀ c r, c.failed = false → Runs definitions q c r →
      r.failed = false → c.Advances r := fun q hq c r hc hrun hr => hrun.advances (hx.call hq) hc hr
  cases h with
  | sequence hpasses =>
    have hlast := hpasses.advances hc fun part hmem => hcalled part (.sequence (by simp [hmem]))
    exact ⟨hlast, hpasses.failed_eq_false hc⟩
  | chainNext hfirst hm => exact ⟨hcalled _ .chainFirst _ _ hc hfirst hm, hm⟩
  | many hpasses =>
    exact ⟨hpasses.advances_replicate hc (hcalled _ .many), hpasses.failed_eq_false hc⟩
  | many1 hpasses =>
    exact ⟨hpasses.advances_replicate hc (hcalled _ .many1), hpasses.failed_eq_false hc⟩
  | exactly _ hpasses =>
    exact ⟨hpasses.advances_replicate hc (hcalled _ .exactly), hpasses.failed_eq_false hc⟩
  | upTo _ hpasses =>
    exact ⟨hpasses.advances_replicate hc (hcalled _ .upTo), hpasses.failed_eq_false hc⟩
  | untilStop hpasses | untilBody hpasses =>
    have hlast := hpasses.advances_replicate hc fun c r hc hround =>
      hcalled _ .untilBody c r hc hround.2
    exact ⟨hlast, hpasses.failed_eq_false hc⟩
  | choice | chainFirst | optional | peek | map | mapIndexed | mapError | tagged | named
    | definition => exact ⟨.refl _, hc⟩

theorem entered (h : Visits definitions x y) (hx : Entered definitions source x) :
    Entered definitions source y :=
  have hadvances := h.advances hx.library hx.ok
  ⟨hx.library.call h.calls, hadvances.1.source_eq.trans hx.source_eq, hadvances.2⟩

end Visits

/-- What holds of the parser and the cursor where a run starts holds wherever it comes to. -/
theorem entered_of_visits (h : Relation.ReflTransGen (Visits definitions) x y)
    (hx : Entered definitions source x) : Entered definitions source y ∧ x.2.Advances y.2 := by
  induction h with
  | refl => exact ⟨hx, .refl _⟩
  | tail _ hvisit ih =>
    obtain ⟨hentered, hadvances⟩ := ih
    exact ⟨hvisit.entered hentered,
      hadvances.trans (hvisit.advances hentered.library hentered.ok).1⟩

end Scannerless.Parser
