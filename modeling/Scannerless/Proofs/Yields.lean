import Scannerless.Parser.Levels
import Scannerless.Proofs.RunSteps

/-!
# Steps are taken by runs

The converse of reading a run back into steps, with the levels counted: what the parts of a parser
yield with enough levels, the parser yields with one level more. A repetition needs as many levels
as it has rounds, and one for the attempt that fails.
-/
namespace Scannerless.Parser

/-- With `enough` levels or more the run gives `r`. -/
def Yields (definitions : Definitions) (enough : Nat) (p : Parser) (c r : Cursor) : Prop :=
  ∀ levels, enough ≤ levels → p.runFor definitions levels c = .value r

/-- The parser fails with enough levels. -/
def Refuses (definitions : Definitions) (enough : Nat) (p : Parser) (c : Cursor) : Prop :=
  ∃ f, Yields definitions enough p c f ∧ f.failed = true

theorem Passes.mono {A B : Parser → Cursor → Cursor → Prop} (hAB : ∀ q c r, A q c r → B q c r)
    {parts : List Parser} {c last : Cursor} {rs : List Value} (h : Passes A parts c rs last) :
    Passes B parts c rs last := by
  induction h with
  | nil c => exact .nil c
  | cons hpart hnext _ ih => exact .cons (hAB _ _ _ hpart) hnext ih

theorem Pending.mono {A B : Parser → Cursor → Cursor → Prop} (hAB : ∀ q c r, A q c r → B q c r)
    {stop body : Parser} {c r : Cursor} (h : Pending A stop body c r) :
    Pending B stop body c r := by
  obtain ⟨⟨stopped, hstop, hs⟩, hbody⟩ := h
  exact ⟨⟨stopped, hAB _ _ _ hstop, hs⟩, hAB _ _ _ hbody⟩

theorem Passes.append {A : Parser → Cursor → Cursor → Prop} {parts others : List Parser}
    {c m last : Cursor} {rs ss : List Value} (h : Passes A parts c rs m)
    (h' : Passes A others m ss last) : Passes A (parts ++ others) c (rs ++ ss) last := by
  induction h with
  | nil => exact h'
  | cons hpart hnext _ ih => exact .cons hpart hnext (ih h')

theorem Passes.length_eq {A : Parser → Cursor → Cursor → Prop} {parts : List Parser}
    {c last : Cursor} {rs : List Value} (h : Passes A parts c rs last) :
    rs.length = parts.length := by
  induction h with
  | nil => rfl
  | cons _ _ _ ih => exact congrArg Nat.succ ih

section Loops

variable {attempt : Parser → Cursor → Outcome Cursor} {current last f : Cursor} {rs : List Value}

theorem runParts_of_passes {before : List Parser}
    (h : Passes (Gives attempt) before current rs last) (dropNothing : Bool) (entry : Cursor)
    (after : List Parser) (results : List Value) :
    Cursor.runParts attempt dropNothing entry (before ++ after) current results =
      Cursor.runParts attempt dropNothing entry after last
        ((kept dropNothing rs).reverse ++ results) := by
  induction h generalizing results with
  | nil => cases dropNothing <;> rfl
  | @cons part rest c next last rs hpart hnext _ ih =>
    rw [List.cons_append, Cursor.runParts_cons, show attempt part c = .value next from hpart,
      Outcome.value_bind]
    simp only [Cursor.not_failed_iff.mp hnext, ih, kept_cons]
    split <;> simp

theorem runAlternatives_of_refused {before : List Parser}
    (h : ∀ q ∈ before, ∃ f, Gives attempt q current f ∧ f.failed = true) (after : List Parser) :
    current.runAlternatives attempt (before ++ after) = current.runAlternatives attempt after := by
  induction before with
  | nil => rfl
  | cons q before ih =>
    obtain ⟨f, hf, hfailed⟩ := h q (List.mem_cons_self ..)
    rw [List.cons_append, Cursor.runAlternatives_cons, show attempt q current = .value f from hf,
      Outcome.value_bind, if_pos hfailed]
    exact ih fun q hq => h q (List.mem_cons_of_mem _ hq)

variable {body : Parser} {k : Nat}

theorem repeatAll_of_passes (h : Passes (Gives attempt) (List.replicate k body) current rs last)
    (hbody : Gives attempt body last f) (hf : f.failed = true) {steps : Nat} (hsteps : k < steps)
    (results : List Value) :
    Cursor.repeatAll (attempt body) steps current results =
      .value (rs.reverse ++ results, last) := by
  induction k generalizing current rs steps results with
  | zero =>
    cases h
    obtain ⟨steps, rfl⟩ : ∃ n, steps = n + 1 := ⟨steps - 1, by omega⟩
    rw [Cursor.repeatAll_stops hbody hf]
    rfl
  | succ k ih =>
    obtain ⟨steps, rfl⟩ : ∃ n, steps = n + 1 := ⟨steps - 1, by omega⟩
    rw [List.replicate_succ] at h
    cases h with
    | @cons _ _ _ next _ rs hpart hnext hrest =>
      rw [Cursor.repeatAll_goesOn hpart hnext, ih hrest (by omega)]
      simp

theorem repeatExactly_of_passes (h : Passes (Gives attempt) (List.replicate k body) current rs last)
    (count : Nat) (entry : Cursor) (left : Nat) (results : List Value) :
    Cursor.repeatExactly (attempt body) count entry (k + left) current results =
      Cursor.repeatExactly (attempt body) count entry left last (rs.reverse ++ results) := by
  induction k generalizing current rs results with
  | zero =>
    cases h
    rw [Nat.zero_add]
    rfl
  | succ k ih =>
    rw [List.replicate_succ] at h
    cases h with
    | @cons _ _ _ next _ rs hpart hnext hrest =>
      rw [Nat.succ_add, Cursor.repeatExactly_succ,
        show attempt body current = .value next from hpart, Outcome.value_bind, hnext]
      simp only [Bool.false_eq_true, if_false]
      rw [ih hrest]
      simp

theorem repeatUpTo_of_passes (h : Passes (Gives attempt) (List.replicate k body) current rs last)
    (left : Nat) (results : List Value) :
    Cursor.repeatUpTo (attempt body) (k + left) current results =
      Cursor.repeatUpTo (attempt body) left last (rs.reverse ++ results) := by
  induction k generalizing current rs results with
  | zero =>
    cases h
    rw [Nat.zero_add]
    rfl
  | succ k ih =>
    rw [List.replicate_succ] at h
    cases h with
    | @cons _ _ _ next _ rs hpart hnext hrest =>
      rw [Nat.succ_add, Cursor.repeatUpTo_succ, show attempt body current = .value next from hpart,
        Outcome.value_bind, hnext]
      simp only [Bool.false_eq_true, if_false]
      rw [ih hrest]
      simp

theorem repeatUntil_of_passes {stop : Parser}
    (h : Passes (Pending (Gives attempt) stop) (List.replicate k body) current rs last)
    (steps : Nat) (results : List Value) :
    Cursor.repeatUntil (attempt stop) (attempt body) (k + steps) current results =
      Cursor.repeatUntil (attempt stop) (attempt body) steps last (rs.reverse ++ results) := by
  induction k generalizing current rs results with
  | zero =>
    cases h
    rw [Nat.zero_add]
    rfl
  | succ k ih =>
    rw [List.replicate_succ] at h
    cases h with
    | @cons _ _ _ next _ rs hround hnext hrest =>
      obtain ⟨⟨stopped, hstop, hs⟩, hbody⟩ := hround
      rw [Nat.succ_add, Cursor.repeatUntil_succ,
        show attempt stop current = .value stopped from hstop, Outcome.value_bind, if_pos hs,
        show attempt body current = .value next from hbody, Outcome.value_bind, hnext]
      simp only [Bool.false_eq_true, if_false]
      rw [ih hrest]
      simp

end Loops

variable {definitions : Definitions} {n : Nat} {p body stop : Parser} {c m r f last : Cursor}
  {rs : List Value}

theorem Yields.mono (h : Yields definitions n p c r) {more : Nat} (hle : n ≤ more) :
    Yields definitions more p c r :=
  fun levels hlevels => h levels (by omega)

theorem Yields.unique (h : Yields definitions n p c r) {n' : Nat} {r' : Cursor}
    (h' : Yields definitions n' p c r') : r = r' := by
  have hr := h (max n n') (by omega)
  rw [h' (max n n') (by omega)] at hr
  exact (Outcome.value.inj hr).symm

theorem Refuses.mono (h : Refuses definitions n p c) {more : Nat} (hle : n ≤ more) :
    Refuses definitions more p c := by
  obtain ⟨f, hf, hfailed⟩ := h
  exact ⟨f, hf.mono hle, hfailed⟩

theorem Passes.gives {parts : List Parser} (h : Passes (Yields definitions n) parts c rs last)
    {levels : Nat} (hle : n ≤ levels) :
    Passes (Gives (runFor definitions levels)) parts c rs last :=
  h.mono fun _ _ _ hq => hq levels hle

/-- A level that gives `r` whenever its parts have enough levels. -/
theorem yields_succ (hc : c.failed = false)
    (h : ∀ levels, n ≤ levels →
      runWith definitions (runFor definitions levels) levels p c = .value r) :
    Yields definitions (n + 1) p c r := by
  intro levels hlevels
  obtain ⟨less, rfl⟩ : ∃ less, levels = less + 1 := ⟨levels - 1, by omega⟩
  simp only [runFor, hc, Bool.false_eq_true, if_false]
  exact h less (by omega)

theorem yields_leaf (h : Acts p c r) (hc : c.failed = false) : Yields definitions 1 p c r := by
  apply yields_succ hc
  intro levels _
  cases h with
  | rune h | runes h => exact h
  | _ => rfl

theorem yields_succeed (hc : c.failed = false) (v : Value) :
    Yields definitions 1 (.succeed v) c (c.withResult v c.offset) :=
  yields_succ hc fun _ _ => rfl

theorem yields_fail (hc : c.failed = false) (complaint : Complaint) :
    Yields definitions 1 (.fail complaint) c (c.complain complaint) :=
  yields_succ hc fun _ _ => rfl

theorem yields_sequence {parts : List Parser} (hc : c.failed = false)
    (h : Passes (Yields definitions n) parts c rs last) (dropNothing : Bool) :
    Yields definitions (n + 1) (.sequence parts dropNothing) c
      (c.withResult (.tuple (kept dropNothing rs)) last.offset) := by
  apply yields_succ hc
  intro levels hlevels
  have hrow := runParts_of_passes (h.gives hlevels) dropNothing c [] []
  rw [List.append_nil] at hrow
  rw [runWith, hrow, Cursor.runParts, Cursor.collect]
  simp

theorem yields_sequence_fails {before : List Parser} (after : List Parser) {part : Parser}
    {e : Diagnostic} (hc : c.failed = false) (h : Passes (Yields definitions n) before c rs last)
    (hpart : Yields definitions n part last f) (he : f.error = some e) (dropNothing : Bool) :
    Yields definitions (n + 1) (.sequence (before ++ part :: after) dropNothing) c
      (c.withError e) := by
  apply yields_succ hc
  intro levels hlevels
  rw [runWith, runParts_of_passes (h.gives hlevels), Cursor.runParts_cons, hpart levels hlevels,
    Outcome.value_bind, he]

theorem refuses_sequence {before : List Parser} (after : List Parser) {part : Parser}
    (hc : c.failed = false) (h : Passes (Yields definitions n) before c rs last)
    (hpart : Refuses definitions n part last) (dropNothing : Bool) :
    Refuses definitions (n + 1) (.sequence (before ++ part :: after) dropNothing) c := by
  obtain ⟨f, hf, hfailed⟩ := hpart
  obtain ⟨e, he⟩ := Cursor.failed_iff.mp hfailed
  exact ⟨c.withError e, yields_sequence_fails after hc h hf he dropNothing, rfl⟩

theorem yields_choice (before after : List Parser) {alternative : Parser} (hc : c.failed = false)
    (h : ∀ q ∈ before, Refuses definitions n q c) (halt : Yields definitions n alternative c r)
    (hr : r.failed = false) :
    Yields definitions (n + 1) (.choice (before ++ alternative :: after)) c r := by
  apply yields_succ hc
  intro levels hlevels
  have hbefore : ∀ q ∈ before, ∃ f, Gives (runFor definitions levels) q c f ∧ f.failed = true := by
    intro q hq
    obtain ⟨f, hf, hfailed⟩ := h q hq
    exact ⟨f, hf levels hlevels, hfailed⟩
  rw [runWith, runAlternatives_of_refused hbefore, Cursor.runAlternatives_cons, halt levels hlevels,
    Outcome.value_bind, hr]
  rfl

theorem refuses_choice {alternatives : List Parser} (hc : c.failed = false)
    (h : ∀ q ∈ alternatives, Refuses definitions n q c) :
    Refuses definitions (n + 1) (.choice alternatives) c := by
  refine ⟨c.withError (.noChoiceMatched c.offset), yields_succ hc fun levels hlevels => ?_, rfl⟩
  have hall : ∀ q ∈ alternatives, ∃ f, Gives (runFor definitions levels) q c f ∧
      f.failed = true := by
    intro q hq
    obtain ⟨f, hf, hfailed⟩ := h q hq
    exact ⟨f, hf levels hlevels, hfailed⟩
  have hrow := runAlternatives_of_refused hall []
  rw [List.append_nil] at hrow
  rw [runWith, hrow]
  rfl

theorem yields_chain {first : Parser} {next : Value → Parser} (hc : c.failed = false)
    (hfirst : Yields definitions n first c m) (hm : m.failed = false)
    (hnext : Yields definitions n (next m.result) m r) :
    Yields definitions (n + 1) (.chain first next) c r := by
  apply yields_succ hc
  intro levels hlevels
  rw [runWith, hfirst levels hlevels, Outcome.value_bind, hm]
  exact hnext levels hlevels

theorem yields_chain_fails {first : Parser} {next : Value → Parser} (hc : c.failed = false)
    (hfirst : Yields definitions n first c f) (hf : f.failed = true) :
    Yields definitions (n + 1) (.chain first next) c f := by
  apply yields_succ hc
  intro levels hlevels
  rw [runWith, hfirst levels hlevels, Outcome.value_bind, hf]
  rfl

theorem yields_many {k : Nat} (hc : c.failed = false)
    (h : Passes (Yields definitions n) (List.replicate k body) c rs last)
    (hstop : Refuses definitions n body last) (hk : k < n) :
    Yields definitions (n + 1) (.many body) c (last.withResult (.tuple rs) last.offset) := by
  obtain ⟨f, hf, hfailed⟩ := hstop
  apply yields_succ hc
  intro levels hlevels
  have hrow := repeatAll_of_passes (h.gives hlevels) (hf levels hlevels) hfailed
    (show k < levels by omega) []
  rw [runWith, hrow, Outcome.value_bind]
  simp [Cursor.collect]

theorem yields_many1 {k : Nat} (hc : c.failed = false)
    (h : Passes (Yields definitions n) (List.replicate (k + 1) body) c rs last)
    (hstop : Refuses definitions n body last) (hk : k + 1 < n) :
    Yields definitions (n + 1) (.many1 body) c (last.withResult (.tuple rs) last.offset) := by
  obtain ⟨f, hf, hfailed⟩ := hstop
  apply yields_succ hc
  intro levels hlevels
  have hrow := repeatAll_of_passes (h.gives hlevels) (hf levels hlevels) hfailed
    (show k + 1 < levels by omega) []
  have hsome : (rs.reverse ++ []).isEmpty = false := by
    have hlength := h.length_eq
    rw [List.length_replicate] at hlength
    simp [List.ne_nil_of_length_eq_add_one hlength]
  rw [runWith, hrow, Outcome.value_bind]
  simp only [hsome, Bool.false_eq_true, if_false]
  simp [Cursor.collect]

theorem yields_many1_fails (hc : c.failed = false) (h : Refuses definitions n body c) (hn : 0 < n) :
    Yields definitions (n + 1) (.many1 body) c (c.withError (.noRepetition c.offset)) := by
  obtain ⟨f, hf, hfailed⟩ := h
  apply yields_succ hc
  intro levels hlevels
  have hrow := repeatAll_of_passes (.nil c) (hf levels hlevels) hfailed
    (show 0 < levels by omega) []
  rw [runWith, hrow]
  rfl

theorem yields_exactly {count : Nat} (hc : c.failed = false)
    (h : Passes (Yields definitions n) (List.replicate count body) c rs last) :
    Yields definitions (n + 1) (.exactly count body) c (c.withResult (.tuple rs) last.offset) := by
  apply yields_succ hc
  intro levels hlevels
  have hrow := repeatExactly_of_passes (h.gives hlevels) count c 0 []
  rw [Nat.add_zero] at hrow
  rw [runWith, hrow, Cursor.repeatExactly, Cursor.collect]
  simp

theorem yields_exactly_fails {count k : Nat} (hc : c.failed = false)
    (h : Passes (Yields definitions n) (List.replicate k body) c rs last)
    (hstop : Refuses definitions n body last) (hk : k < count) :
    Yields definitions (n + 1) (.exactly count body) c
      (c.withError (.repetitionCount count c.offset)) := by
  obtain ⟨f, hf, hfailed⟩ := hstop
  apply yields_succ hc
  intro levels hlevels
  obtain ⟨left, rfl⟩ : ∃ left, count = k + (left + 1) := ⟨count - k - 1, by omega⟩
  rw [runWith, repeatExactly_of_passes (h.gives hlevels), Cursor.repeatExactly_succ,
    hf levels hlevels, Outcome.value_bind, if_pos hfailed]

theorem yields_upTo_zero (hc : c.failed = false) : Yields definitions 1 (.upTo 0 body) c c :=
  yields_succ hc fun _ _ => rfl

theorem yields_upTo_fails {count : Nat} (hc : c.failed = false) (hcount : 0 < count)
    (hbody : Yields definitions n body c f) (hf : f.failed = true) :
    Yields definitions (n + 1) (.upTo count body) c f := by
  apply yields_succ hc
  intro levels hlevels
  obtain ⟨left, rfl⟩ : ∃ left, count = left + 1 := ⟨count - 1, by omega⟩
  rw [runWith, if_neg (by omega), Cursor.repeatUpTo_succ, hbody levels hlevels, Outcome.value_bind,
    if_pos hf]
  rfl

theorem yields_upTo_all {count : Nat} (hc : c.failed = false) (hcount : 0 < count)
    (h : Passes (Yields definitions n) (List.replicate count body) c rs last) :
    Yields definitions (n + 1) (.upTo count body) c (last.withResult (.tuple rs) last.offset) := by
  apply yields_succ hc
  intro levels hlevels
  have hrow := repeatUpTo_of_passes (h.gives hlevels) 0 []
  rw [Nat.add_zero] at hrow
  rw [runWith, if_neg (by omega), hrow, Cursor.repeatUpTo, Cursor.collect]
  simp

theorem yields_upTo_some {count k : Nat} (hc : c.failed = false) (hsome : 0 < k) (hk : k < count)
    (h : Passes (Yields definitions n) (List.replicate k body) c rs last)
    (hstop : Refuses definitions n body last) :
    Yields definitions (n + 1) (.upTo count body) c (last.withResult (.tuple rs) last.offset) := by
  obtain ⟨f, hf, hfailed⟩ := hstop
  apply yields_succ hc
  intro levels hlevels
  obtain ⟨left, rfl⟩ : ∃ left, count = k + (left + 1) := ⟨count - k - 1, by omega⟩
  have hne : (rs.reverse ++ []).isEmpty = false := by
    have hlength := h.length_eq
    rw [List.length_replicate] at hlength
    simp [List.ne_nil_of_length_pos (show 0 < rs.length by omega)]
  rw [runWith, if_neg (by omega), repeatUpTo_of_passes (h.gives hlevels), Cursor.repeatUpTo_succ,
    hf levels hlevels, Outcome.value_bind, if_pos hfailed]
  simp only [hne, Bool.false_eq_true, if_false]
  simp [Cursor.collect]

theorem Passes.gives_pending {k : Nat}
    (h : Passes (Pending (Yields definitions n) stop) (List.replicate k body) c rs last)
    {levels : Nat} (hle : n ≤ levels) :
    Passes (Pending (Gives (runFor definitions levels)) stop) (List.replicate k body) c rs last :=
  h.mono fun _ _ _ => Pending.mono fun _ _ _ hq => hq levels hle

theorem yields_untilStop {k : Nat} {stopped : Cursor} (hc : c.failed = false)
    (h : Passes (Pending (Yields definitions n) stop) (List.replicate k body) c rs last)
    (hstop : Yields definitions n stop last stopped) (hs : stopped.failed = false) (hk : k < n) :
    Yields definitions (n + 1) (.untilStop stop body) c
      (last.withResult (.tuple rs) last.offset) := by
  apply yields_succ hc
  intro levels hlevels
  obtain ⟨steps, rfl⟩ : ∃ steps, levels = k + (steps + 1) := ⟨levels - k - 1, by omega⟩
  rw [runWith, repeatUntil_of_passes (h.gives_pending hlevels), Cursor.repeatUntil_succ,
    hstop _ hlevels, Outcome.value_bind, hs]
  simp [Cursor.collect]

/-- The failure is that of the last look at the stop. -/
theorem yields_untilStop_fails {k : Nat} {stopped : Cursor} (hc : c.failed = false)
    (h : Passes (Pending (Yields definitions n) stop) (List.replicate k body) c rs last)
    (hstop : Yields definitions n stop last stopped) (hs : stopped.failed = true)
    (hbody : Refuses definitions n body last) (hk : k < n) :
    Yields definitions (n + 1) (.untilStop stop body) c stopped := by
  obtain ⟨f, hf, hfailed⟩ := hbody
  apply yields_succ hc
  intro levels hlevels
  obtain ⟨steps, rfl⟩ : ∃ steps, levels = k + (steps + 1) := ⟨levels - k - 1, by omega⟩
  rw [runWith, repeatUntil_of_passes (h.gives_pending hlevels), Cursor.repeatUntil_succ,
    hstop _ hlevels, Outcome.value_bind, if_pos hs, hf _ hlevels, Outcome.value_bind,
    if_pos hfailed]

theorem yields_map {transform : Value → Outcome Value} {v : Value} (hc : c.failed = false)
    (hbody : Yields definitions n body c m) (hm : m.failed = false)
    (hv : transform m.result = .value v) :
    Yields definitions (n + 1) (.map body transform) c (m.withResult v m.offset) := by
  apply yields_succ hc
  intro levels hlevels
  rw [runWith, hbody levels hlevels, Outcome.value_bind, hm, hv]
  rfl

theorem yields_map_fails {transform : Value → Outcome Value} (hc : c.failed = false)
    (hbody : Yields definitions n body c f) (hf : f.failed = true) :
    Yields definitions (n + 1) (.map body transform) c f := by
  apply yields_succ hc
  intro levels hlevels
  rw [runWith, hbody levels hlevels, Outcome.value_bind, hf]
  rfl

theorem refuses_map {transform : Value → Outcome Value} (hc : c.failed = false)
    (h : Refuses definitions n body c) : Refuses definitions (n + 1) (.map body transform) c := by
  obtain ⟨f, hf, hfailed⟩ := h
  exact ⟨f, yields_map_fails hc hf hfailed, hfailed⟩

theorem yields_mapError {explain : Cursor → Outcome Complaint} (hc : c.failed = false)
    (hbody : Yields definitions n body c r) (hr : r.failed = false) :
    Yields definitions (n + 1) (.mapError body explain) c r := by
  apply yields_succ hc
  intro levels hlevels
  rw [runWith, hbody levels hlevels, Outcome.value_bind, hr]
  rfl

theorem yields_mapError_fails {explain : Cursor → Outcome Complaint} {complaint : Complaint}
    (hc : c.failed = false) (hbody : Yields definitions n body c f) (hf : f.failed = true)
    (hcomplaint : explain f = .value complaint) :
    Yields definitions (n + 1) (.mapError body explain) c (f.complain complaint) := by
  apply yields_succ hc
  intro levels hlevels
  rw [runWith, hbody levels hlevels, Outcome.value_bind, hf, hcomplaint]
  rfl

theorem yields_tagged {label : String} {span : Span} (hc : c.failed = false)
    (hbody : Yields definitions n body c m) (hm : m.failed = false)
    (hspan : Span.between c.offset m.offset = .ok span) :
    Yields definitions (n + 1) (.tagged body label) c
      (m.withResult (.token label m.result span) m.offset) := by
  apply yields_succ hc
  intro levels hlevels
  rw [runWith, hbody levels hlevels, Outcome.value_bind, hm, hspan]
  rfl

theorem yields_tagged_fails {label : String} (hc : c.failed = false)
    (hbody : Yields definitions n body c f) (hf : f.failed = true) :
    Yields definitions (n + 1) (.tagged body label) c f := by
  apply yields_succ hc
  intro levels hlevels
  rw [runWith, hbody levels hlevels, Outcome.value_bind, hf]
  rfl

theorem yields_named {name : String} (hc : c.failed = false)
    (hbody : Yields definitions n body c r) :
    Yields definitions (n + 1) (.named body name) c r :=
  yields_succ hc hbody

theorem refuses_named {name : String} (hc : c.failed = false) (h : Refuses definitions n body c) :
    Refuses definitions (n + 1) (.named body name) c := by
  obtain ⟨f, hf, hfailed⟩ := h
  exact ⟨f, yields_named hc hf, hfailed⟩

theorem yields_custom {name : String} {action : Cursor → Outcome Cursor} (hc : c.failed = false)
    (h : action c = .value r) : Yields definitions 1 (.custom name action) c r :=
  yields_succ hc fun _ _ => h

theorem run_of_yields (h : Yields [] n p c r) (hn : n ≤ Grammar.levels c.source) :
    (Grammar.ofParser p).run c = .value r :=
  h _ hn

/-- A run has more levels than a repetition over the source needs. -/
theorem run_of_yields_size (h : Yields [] n p c r) (hn : n ≤ c.source.size + 0x100) :
    (Grammar.ofParser p).run c = .value r := by
  apply run_of_yields h
  unfold Grammar.levels
  omega

theorem run_leaf (h : Acts p c r) (hc : c.failed = false) :
    (Grammar.ofParser p).run c = .value r :=
  run_of_yields_size (yields_leaf h hc) (by omega)

end Scannerless.Parser
