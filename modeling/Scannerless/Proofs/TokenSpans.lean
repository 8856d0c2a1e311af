import Scannerless.Proofs.Faults

/-!
# Where tokens lie

Every token in the result of a parse was read between the offset where the parse started and the
offset where it ended, however deep it lies. One tagged parser alone does not show this: options,
lookahead and failed attempts carry older tokens along, and the continuation of a chain may hold the
ones that it was chosen by. The invariant therefore speaks of all that a cursor carries and of all
that a continuation knows, against the offset where the outermost parse started.
-/
namespace Scannerless

namespace Value

mutual

/-- The spans of all tokens in a value, at any depth. -/
def spans : Value → List Span
  | token _ value span => span :: spans value
  | tuple items => spansOfItems items
  | _ => []

/-- The spans of all tokens in a list of values. -/
def spansOfItems : List Value → List Span
  | [] => []
  | v :: vs => spans v ++ spansOfItems vs

end

@[simp] theorem spans_text (s : String) : (text s).spans = [] := rfl

theorem mem_spans_tuple {span : Span} {items : List Value} :
    span ∈ (tuple items).spans ↔ ∃ v ∈ items, span ∈ v.spans := by
  rw [spans]
  induction items with
  | nil => simp [spansOfItems]
  | cons v vs ih => simp [spansOfItems, ih]

theorem mem_spans_token {span other : Span} {label : String} {v : Value} :
    span ∈ (token label v other).spans ↔ span = other ∨ span ∈ v.spans := by
  rw [spans, List.mem_cons]

end Value

/-- The spans lie between two offsets. -/
def Inside (low high : Int) (spans : List Span) : Prop :=
  ∀ span ∈ spans, low ≤ span.start ∧ span.stop ≤ high

namespace Inside

variable {low high : Int} {spans more : List Span}

theorem mono {higher : Int} (h : Inside low high spans) (hle : high ≤ higher) :
    Inside low higher spans := by
  intro span hspan
  obtain ⟨hstart, hstop⟩ := h span hspan
  exact ⟨hstart, Int.le_trans hstop hle⟩

theorem of_subset (h : Inside low high spans) (hsub : more ⊆ spans) : Inside low high more :=
  fun span hspan => h span (hsub hspan)

theorem append (h : Inside low high spans) (hmore : Inside low high more) :
    Inside low high (spans ++ more) := by
  intro span hspan
  exact (List.mem_append.mp hspan).elim (h span) (hmore span)

theorem tuple {items : List Value} (h : ∀ v ∈ items, Inside low high v.spans) :
    Inside low high (Value.tuple items).spans := by
  intro span hspan
  obtain ⟨v, hv, hspan⟩ := Value.mem_spans_tuple.mp hspan
  exact h v hv span hspan

end Inside

namespace Parser

/-- The parser puts no token into a result but what it was given: the tokens of the result that it
transforms, and the known ones. -/
def PlacesGiven : Parser → List Span → Prop
  | succeed value, known => value.spans ⊆ known
  | map _ transform, known => ∀ v w, transform v = .value w → w.spans ⊆ known ++ v.spans
  | mapIndexed _ transform, known =>
    ∀ v offset w, transform v offset = .value w → w.spans ⊆ known ++ v.spans
  | custom _ _, _ => False
  | _, _ => True

/-- `Hands definitions (p, known) (q, known')`: one level of `p` may run `q`. The continuation of a
chain knows the tokens of the result that it was chosen by. -/
inductive Hands (definitions : Definitions) : Parser × List Span → Parser × List Span → Prop where
  | part {p q known} (hp : ∀ first next, p ≠ .chain first next) (h : Calls definitions p q) :
      Hands definitions (p, known) (q, known)
  | chainFirst {first next known} : Hands definitions (.chain first next, known) (first, known)
  | chainNext {first next known} (v : Value) :
      Hands definitions (.chain first next, known) (next v, known ++ v.spans)

theorem Hands.calls {definitions : Definitions} {x y : Parser × List Span}
    (h : Hands definitions x y) : Calls definitions x.1 y.1 := by
  cases h with
  | part _ h => exact h
  | chainFirst => exact .chainFirst
  | chainNext v => exact .chainNext v

/-- Every parser that `p` can come to run, with what it knows then, places only what it was given.
No token is made up: not by a function, not by a constant. -/
def Rearranges (definitions : Definitions) (known : List Span) (p : Parser) : Prop :=
  ∀ x, Relation.ReflTransGen (Hands definitions) (p, known) x → x.1.PlacesGiven x.2

namespace Rearranges

variable {definitions : Definitions} {known known' : List Span} {p q : Parser}

theorem here (h : p.Rearranges definitions known) : p.PlacesGiven known :=
  h _ .refl

theorem hands (h : p.Rearranges definitions known) (hq : Hands definitions (p, known) (q, known')) :
    q.Rearranges definitions known' :=
  fun x hx => h x (.head hq hx)

/-- A grammar without recursion is checked from the outside in. -/
theorem intro (hp : p.PlacesGiven known)
    (h : ∀ q known', Hands definitions (p, known) (q, known') → q.Rearranges definitions known') :
    p.Rearranges definitions known := by
  intro x hx
  rcases hx.cases_head with rfl | ⟨⟨q, known'⟩, hq, hrest⟩
  · exact hp
  · exact h q known' hq x hrest

theorem call (h : p.Rearranges definitions known) (hq : Calls definitions p q) :
    ∃ known', q.Rearranges definitions known' := by
  cases hq with
  | chainFirst => exact ⟨known, h.hands .chainFirst⟩
  | chainNext v => exact ⟨known ++ v.spans, h.hands (.chainNext v)⟩
  | sequence hmem => exact ⟨known, h.hands (.part nofun (.sequence hmem))⟩
  | choice hmem => exact ⟨known, h.hands (.part nofun (.choice hmem))⟩
  | _ => exact ⟨known, h.hands (.part nofun (by constructor))⟩

theorem library (h : p.Rearranges definitions known) : p.Throughout definitions IsLibrary := by
  intro q hq
  have hreached : ∃ known', q.Rearranges definitions known' := by
    induction hq with
    | refl => exact ⟨known, h⟩
    | tail _ hcall ih =>
      obtain ⟨_, hmiddle⟩ := ih
      exact hmiddle.call hcall
  obtain ⟨known', hq⟩ := hreached
  have hplaces := hq.here
  cases q with
  | custom => exact hplaces.elim
  | _ => trivial

end Rearranges

/-- The invariant. All tokens that the cursor carries, and the known ones, lie between `low` and the
cursor. -/
structure Carries (low : Int) (known : List Span) (c : Cursor) : Prop where
  le_offset : low ≤ c.offset
  known_inside : Inside low c.offset known
  result_inside : Inside low c.offset c.result.spans

namespace Carries

variable {low : Int} {known : List Span} {c r : Cursor}

/-- Further on, with a result of which the tokens lie before. -/
theorem further (h : Carries low known c) (hle : c.offset ≤ r.offset)
    (hr : Inside low r.offset r.result.spans) : Carries low known r :=
  ⟨Int.le_trans h.le_offset hle, h.known_inside.mono hle, hr⟩

theorem withError (h : Carries low known c) (e : Diagnostic) : Carries low known (c.withError e) :=
  ⟨h.le_offset, h.known_inside, h.result_inside⟩

/-- What was learnt in between need not be known further on. -/
theorem forget {more : List Span} (h : Carries low (known ++ more) c) : Carries low known c :=
  ⟨h.le_offset, h.known_inside.of_subset (List.subset_append_left _ _), h.result_inside⟩

/-- A result that takes its tokens from the one before and from the known. -/
theorem rearrange (h : Carries low known c) {v : Value} (hv : v.spans ⊆ known ++ c.result.spans) :
    Carries low known (c.withResult v c.offset) :=
  ⟨h.le_offset, h.known_inside, (h.known_inside.append h.result_inside).of_subset hv⟩

end Carries

/-- What a run does to the cursor: it moves no token behind the cursor, and never goes back. -/
def CarriesOn (low : Int) (known : List Span) (c r : Cursor) : Prop :=
  Carries low known c → c.offset ≤ r.offset ∧ Carries low known r

variable {definitions : Definitions} {A : Parser → Cursor → Cursor → Prop} {p : Parser} {low : Int}
  {known : List Span} {c r : Cursor}

/-- What a row of successes does: it carries on, and so do the results that are collected. -/
structure RowCarriesOn (low : Int) (known : List Span) (c last : Cursor) (rs : List Value) :
    Prop where
  le_offset : c.offset ≤ last.offset
  last_carries : Carries low known last
  results_inside : ∀ v ∈ rs, Inside low last.offset v.spans

/-- The tuple of some of the results, on whichever cursor. -/
theorem RowCarriesOn.collect {last : Cursor} {rs items : List Value}
    (h : RowCarriesOn low known c last rs) (hitems : ∀ v ∈ items, v ∈ rs) (m : Cursor) :
    c.offset ≤ last.offset ∧ Carries low known (m.withResult (.tuple items) last.offset) :=
  ⟨h.le_offset, h.last_carries.le_offset, h.last_carries.known_inside,
    .tuple fun v hv => h.results_inside v (hitems v hv)⟩

theorem Passes.carriesOn {parts : List Parser} {last : Cursor} {rs : List Value}
    (h : Passes A parts c rs last) (hc : c.failed = false)
    (hA : ∀ part ∈ parts, ∀ c r, c.failed = false → A part c r → CarriesOn low known c r)
    (hcarries : Carries low known c) : RowCarriesOn low known c last rs := by
  induction h with
  | nil => exact ⟨Int.le_refl _, hcarries, nofun⟩
  | cons hpart hnext _ ih =>
    obtain ⟨hle, hfirst⟩ := hA _ (List.mem_cons_self ..) _ _ hc hpart hcarries
    have hrest := ih hnext (fun part hmem => hA part (List.mem_cons_of_mem _ hmem)) hfirst
    refine ⟨Int.le_trans hle hrest.le_offset, hrest.last_carries, ?_⟩
    have hinside := hfirst.result_inside.mono hrest.le_offset
    exact List.forall_mem_cons.mpr ⟨hinside, hrest.results_inside⟩

theorem Passes.carriesOn_replicate {body : Parser} {k : Nat} {last : Cursor} {rs : List Value}
    (h : Passes A (List.replicate k body) c rs last) (hc : c.failed = false)
    (hA : ∀ c r, c.failed = false → A body c r → CarriesOn low known c r)
    (hcarries : Carries low known c) : RowCarriesOn low known c last rs := by
  refine h.carriesOn hc (fun part hmem => ?_) hcarries
  rw [List.eq_of_mem_replicate hmem]
  exact hA

theorem mem_of_mem_kept {dropNothing : Bool} {rs : List Value} {v : Value}
    (h : v ∈ kept dropNothing rs) : v ∈ rs := by
  unfold kept at h
  split at h
  · exact List.mem_filter.mp h |>.1
  · exact h

/-- What a leaf leaves as the result: what it found there, or a text, or its own constant. -/
theorem Acts.result_eq (h : Acts p c r) :
    r.result = c.result ∨ (∃ s, r.result = .text s) ∨ ∃ v, p = .succeed v ∧ r.result = v := by
  have hrefuse : ∀ complaint usual, (c.refuse complaint usual).result = c.result := by
    intro complaint usual
    cases complaint <;> rfl
  cases h with
  | rune h =>
    rcases Cursor.matchRune_eq_value_iff.mp h with ⟨rune, width, _, _, rfl⟩ | ⟨_, rfl⟩
    · exact .inr (.inl ⟨_, rfl⟩)
    · exact .inl (hrefuse _ _)
  | runes h =>
    obtain ⟨runes, stop, _, rfl⟩ := Cursor.matchRunes_eq_value_iff.mp h
    split
    · exact .inl (hrefuse _ _)
    · exact .inr (.inl ⟨_, rfl⟩)
  | runeCount =>
    rw [Cursor.matchRuneCount_eq]
    split
    · exact .inl rfl
    · exact .inr (.inl ⟨_, rfl⟩)
  | literal =>
    simp only [Cursor.matchLiteral]
    split
    · exact .inr (.inl ⟨_, rfl⟩)
    · exact .inl rfl
  | foldedLiteral =>
    simp only [Cursor.matchFoldedLiteral]
    split
    · exact .inr (.inl ⟨_, rfl⟩)
    · exact .inl rfl
  | succeed => exact .inr (.inr ⟨_, rfl, rfl⟩)
  | fail => exact .inl rfl
  | startOfInput =>
    simp only [Cursor.matchStartOfInput]
    split <;> exact .inl rfl
  | endOfInput =>
    simp only [Cursor.matchEndOfInput]
    split <;> exact .inl rfl
  | startOfLine =>
    simp only [Cursor.matchStartOfLine]
    split
    · exact .inl rfl
    · split <;> exact .inl rfl

theorem Acts.carriesOn (h : Acts p c r) (hc : c.failed = false) (hp : p.PlacesGiven known) :
    CarriesOn low known c r := by
  intro hcarries
  have hle : c.offset ≤ r.offset := by
    rcases h.advances hc with (⟨_, hadvances⟩ | ⟨e, he, _⟩) | ⟨d, _, hd⟩
    · exact hadvances.le_offset
    · exact Int.le_of_eq (by rw [he, Cursor.offset_withError])
    · exact Int.le_of_eq (by rw [hd, Cursor.offset_withError])
  refine ⟨hle, hcarries.further hle ?_⟩
  rcases h.result_eq with hsame | ⟨s, htext⟩ | ⟨v, rfl, hconstant⟩
  · rw [hsame]
    exact hcarries.result_inside.mono hle
  · rw [htext, Value.spans_text]
    exact nofun
  · rw [hconstant]
    exact (hcarries.known_inside.mono hle).of_subset hp

/-- One level carries on if what it calls does. -/
theorem Step.carriesOn (hp : p.Rearranges definitions known) (hc : c.failed = false)
    (hA : ∀ q known', Hands definitions (p, known) (q, known') → ∀ c r, c.failed = false →
      A q c r → CarriesOn low known' c r)
    (h : Step definitions A p c r) : CarriesOn low known c r := by
  -- Only the continuation of a chain knows more.
  have hpart : (∀ first next, p ≠ .chain first next) → ∀ q, Calls definitions p q → ∀ c r,
      c.failed = false → A q c r → CarriesOn low known c r :=
    fun hchain q hq => hA q known (.part hchain hq)
  intro hcarries
  cases h with
  | leaf hact => exact hact.carriesOn hc hp.here hcarries
  | sequence hpasses =>
    have hrow := hpasses.carriesOn hc (fun q hq => hpart nofun q (.sequence hq)) hcarries
    exact hrow.collect (fun _ => mem_of_mem_kept) c
  | choice _ halt _ => exact hpart nofun _ (.choice (by simp)) c r hc halt hcarries
  | chain hfirst hm hnext =>
    obtain ⟨hle, hmiddle⟩ := hA _ _ .chainFirst _ _ hc hfirst hcarries
    have hknown := hmiddle.known_inside.append hmiddle.result_inside
    have hknows := Carries.mk hmiddle.le_offset hknown hmiddle.result_inside
    obtain ⟨hle', hlast⟩ := hA _ _ (.chainNext _) _ _ hm hnext hknows
    exact ⟨Int.le_trans hle hle', hlast.forget⟩
  | chainFails hfirst _ => exact hA _ _ .chainFirst _ _ hc hfirst hcarries
  | many hpasses =>
    have hrow := hpasses.carriesOn_replicate hc (hpart nofun _ .many) hcarries
    exact hrow.collect (fun _ hv => hv) _
  | many1 hpasses =>
    have hrow := hpasses.carriesOn_replicate hc (hpart nofun _ .many1) hcarries
    exact hrow.collect (fun _ hv => hv) _
  | exactly hpasses =>
    have hrow := hpasses.carriesOn_replicate hc (hpart nofun _ .exactly) hcarries
    exact hrow.collect (fun _ hv => hv) _
  | upToAll hpasses | upToSome _ hpasses =>
    have hrow := hpasses.carriesOn_replicate hc (hpart nofun _ .upTo) hcarries
    exact hrow.collect (fun _ hv => hv) _
  | untilStop hpasses =>
    have hrow := hpasses.carriesOn_replicate hc (fun c r hc hround =>
      hpart nofun _ .untilBody c r hc hround.2) hcarries
    exact hrow.collect (fun _ hv => hv) _
  | untilStopFails hpasses hstop =>
    have hrow := hpasses.carriesOn_replicate hc (fun c r hc hround =>
      hpart nofun _ .untilBody c r hc hround.2) hcarries
    obtain ⟨hle, hlast⟩ :=
      hpart nofun _ .untilStop _ _ (hpasses.failed_eq_false hc) hstop hrow.last_carries
    exact ⟨Int.le_trans hrow.le_offset hle, hlast⟩
  | upToFails hbody => exact hpart nofun _ .upTo _ _ hc hbody hcarries
  | optional hbody => exact hpart nofun _ .optional _ _ hc hbody hcarries
  | map hbody hm hv =>
    obtain ⟨hle, hmiddle⟩ := hpart nofun _ .map _ _ hc hbody hcarries
    exact ⟨hle, hmiddle.rearrange (hp.here _ _ hv)⟩
  | mapFails hbody => exact hpart nofun _ .map _ _ hc hbody hcarries
  | mapIndexed hbody hm hv =>
    obtain ⟨hle, hmiddle⟩ := hpart nofun _ .mapIndexed _ _ hc hbody hcarries
    exact ⟨hle, hmiddle.rearrange (hp.here _ _ _ hv)⟩
  | mapIndexedFails hbody => exact hpart nofun _ .mapIndexed _ _ hc hbody hcarries
  | mapError hbody =>
    obtain ⟨hle, hmiddle⟩ := hpart nofun _ .mapError _ _ hc hbody hcarries
    exact ⟨hle, hmiddle.withError _⟩
  | mapErrorPasses hbody => exact hpart nofun _ .mapError _ _ hc hbody hcarries
  | tagged hbody hm hspan =>
    -- The new token covers the way from the entry to here; the tokens below it lie before.
    obtain ⟨hle, hmiddle⟩ := hpart nofun _ .tagged _ _ hc hbody hcarries
    obtain ⟨hstart, hstop⟩ := Span.between_eq_ok_iff.mp hspan
    refine ⟨hle, hmiddle.further (Int.le_refl _) fun span hmem => ?_⟩
    rcases Value.mem_spans_token.mp hmem with rfl | hbelow
    · rw [hstart, hstop]
      exact ⟨hcarries.le_offset, Int.le_refl _⟩
    · exact hmiddle.result_inside span hbelow
  | taggedFails hbody => exact hpart nofun _ .tagged _ _ hc hbody hcarries
  | named hbody => exact hpart nofun _ .named _ _ hc hbody hcarries
  | definition hbody => exact hpart nofun _ .definition _ _ hc hbody hcarries
  | custom => exact hp.here.elim
  -- What is left goes back to the entry.
  | sequenceFails | choiceFails | many1Fails | exactlyFails | peekFails =>
    exact ⟨Int.le_refl _, hcarries.withError _⟩
  | upToNone | optionalSkips | peek => exact ⟨Int.le_refl _, hcarries⟩

theorem run_carriesOn {levels : Nat} (hp : p.Rearranges definitions known) (hc : c.failed = false)
    (h : p.runFor definitions levels c = .value r) : CarriesOn low known c r := by
  have hany : p.Throughout definitions fun _ => True := fun _ _ => trivial
  refine run_induction (R := fun p c r => ∀ known, p.Rearranges definitions known →
    CarriesOn low known c r) ?_ hany hc h known hp
  intro A p c r _ hc hA hstep known hp
  refine hstep.carriesOn hp hc fun q known' hq c r hc hr => ?_
  exact hA q hq.calls c r hc hr known' (hp.hands hq)

/-- A failed cursor passes through. -/
theorem eq_of_runFor_failed {levels : Nat} (hc : c.failed = true)
    (h : p.runFor definitions levels c = .value r) : r = c := by
  cases levels with
  | zero => cases h
  | succ levels => simpa [runFor, hc] using h.symm

/-- Token spans are sound. No run refuses the span of a token: not at any parser and cursor that it
comes to, so that it raises only what the author's functions raise. And every token in its result,
at any depth, lies between the offset where it started and the one where it ended. -/
theorem token_spans_sound (hp : p.Rearranges definitions []) (hoffset : 0 ≤ c.offset)
    (hresult : c.result.spans = []) :
    (∀ x fault, c.failed = false → Relation.ReflTransGen (Visits definitions) (p, c) x →
      ¬ RefusesSpan definitions x fault) ∧
    (∀ levels fault, p.runFor definitions levels c = .raised fault →
      ∃ q, Relation.ReflTransGen (Calls definitions) p q ∧ q.Raises fault) ∧
    ∀ levels r, p.runFor definitions levels c = .value r → ∀ span ∈ r.result.spans,
      c.offset ≤ span.start ∧ span.start ≤ span.stop ∧ span.stop ≤ r.offset := by
  refine ⟨fun x fault hc hx => ?_, fun levels fault => raised_by_author hp.library hoffset, ?_⟩
  · obtain ⟨hentered, hadvances⟩ := entered_of_visits hx ⟨hp.library, rfl, hc⟩
    exact not_refusesSpan hentered.library hentered.ok (Int.le_trans hoffset hadvances.le_offset)
  · intro levels r h span hspan
    have hcarries : Carries c.offset [] c :=
      ⟨Int.le_refl _, nofun, by rw [hresult]; exact nofun⟩
    have hcarried : Carries c.offset [] r := by
      cases hc : c.failed with
      | true => rwa [eq_of_runFor_failed hc h]
      | false => exact (run_carriesOn hp hc h hcarries).2
    obtain ⟨hstart, hstop⟩ := hcarried.result_inside span hspan
    exact ⟨hstart, span.start_le_stop, hstop⟩

/-- An `a` and then letters `b`, each with a token of its own; the function at the end pairs the
tokens of the `b` with the one that the chain was continued for. -/
theorem token_spans_sound_chain :
    ∃ r, runFor [] 9 (.tagged (.chain (.tagged (.literal "a") "A") fun v =>
        .map (.many (.tagged (.literal "b") "B")) fun w => .value (.tuple [v, w])) "AB")
        ⟨.ofBytes #[0x78, 0x61, 0x62, 0x62], 1, .nothing, none⟩ = .value r ∧
      r.result.spans.length = 4 ∧
      ∀ span ∈ r.result.spans, 1 ≤ span.start ∧ span.start ≤ span.stop ∧ span.stop ≤ r.offset := by
  have hletter : ∀ known text label, (tagged (.literal text) label).Rearranges [] known := by
    intro known text label
    refine .intro trivial fun q known' hq => ?_
    cases hq with
    | part _ hcall =>
      cases hcall
      exact .intro trivial fun q known' hq => by cases hq with | part _ hcall => cases hcall
  have hp : (tagged (.chain (.tagged (.literal "a") "A") fun v =>
      .map (.many (.tagged (.literal "b") "B")) fun w => .value (.tuple [v, w])) "AB").Rearranges []
        [] := by
    refine .intro trivial fun q known' hq => ?_
    cases hq with
    | part _ hcall =>
      cases hcall
      refine .intro trivial fun q known' hq => ?_
      cases hq with
      | part hchain _ => exact (hchain _ _ rfl).elim
      | chainFirst => exact hletter [] "a" "A"
      | chainNext v =>
        refine .intro ?_ fun q known' hq => ?_
        · rintro w _ ⟨⟩ span hspan
          simpa [Value.mem_spans_tuple] using hspan
        · cases hq with
          | part _ hcall =>
            cases hcall
            refine .intro trivial fun q known' hq => ?_
            cases hq with
            | part _ hcall =>
              cases hcall
              exact hletter _ "b" "B"
  obtain ⟨r, hrun, hr⟩ : ∃ r, runFor [] 9 (.tagged (.chain (.tagged (.literal "a") "A") fun v =>
      .map (.many (.tagged (.literal "b") "B")) fun w => .value (.tuple [v, w])) "AB")
      ⟨.ofBytes #[0x78, 0x61, 0x62, 0x62], 1, .nothing, none⟩ = .value r ∧
      r.result.spans.length = 4 := ⟨_, rfl, rfl⟩
  obtain ⟨_, _, hspans⟩ :=
    token_spans_sound (c := ⟨.ofBytes #[0x78, 0x61, 0x62, 0x62], 1, .nothing, none⟩)
    hp (by decide) rfl
  exact ⟨r, hrun, hr, hspans 9 r hrun⟩

end Parser

end Scannerless
