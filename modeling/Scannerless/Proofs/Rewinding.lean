import Scannerless.Parser.Build
import Scannerless.Proofs.Progress

/-!
# Where a failure leaves the cursor

A parser that fails gives back the cursor that it was entered with, and only the failure is new. Two
combinators do not keep to this, because they hand on the failure of a part that was not run at
their own entry: a chain fails where its first parser has come to, and a repetition until a stop
fails where the last look at the stop was taken. Everything that hands on their failures inherits
this; everything that makes a failure of its own at its entry shuts it out again.
-/
namespace Scannerless.Parser

/-- `HandsOn definitions p q`: a failure of `q`, run where `p` is entered, may be the failure of
`p`. -/
inductive HandsOn (definitions : Definitions) : Parser → Parser → Prop where
  | upTo {count : Nat} {body : Parser} : HandsOn definitions (.upTo count body) body
  | map {body : Parser} {transform : Value → Outcome Value} :
      HandsOn definitions (.map body transform) body
  | mapIndexed {body : Parser} {transform : Value → Int → Outcome Value} :
      HandsOn definitions (.mapIndexed body transform) body
  | mapError {body : Parser} {explain : Cursor → Outcome Complaint} :
      HandsOn definitions (.mapError body explain) body
  | tagged {body : Parser} {label : String} : HandsOn definitions (.tagged body label) body
  | named {body : Parser} {name : String} : HandsOn definitions (.named body name) body
  | definition {name : String} : HandsOn definitions (.definition name) (definitions.find name)

theorem HandsOn.calls {definitions : Definitions} {p q : Parser} (h : HandsOn definitions p q) :
    Calls definitions p q := by
  cases h with
  | upTo => exact .upTo
  | map => exact .map
  | mapIndexed => exact .mapIndexed
  | mapError => exact .mapError
  | tagged => exact .tagged
  | named => exact .named
  | definition => exact .definition

/-- A parser that may fail at another cursor than its entry. -/
def Strays : Parser → Prop
  | chain _ _ | untilStop _ _ | custom _ _ => True
  | _ => False

/-- No failure that the parser hands on comes from one that strays. -/
def Rewinds (definitions : Definitions) (p : Parser) : Prop :=
  ∀ q, Relation.ReflTransGen (HandsOn definitions) p q → ¬ q.Strays

namespace Rewinds

variable {definitions : Definitions} {p q : Parser}

theorem here (h : p.Rewinds definitions) : ¬ p.Strays :=
  h p .refl

theorem handsOn (h : p.Rewinds definitions) (hq : HandsOn definitions p q) :
    q.Rewinds definitions :=
  fun r hr => h r (.head hq hr)

theorem intro (hp : ¬ p.Strays) (h : ∀ q, HandsOn definitions p q → q.Rewinds definitions) :
    p.Rewinds definitions := by
  intro q hq
  rcases hq.cases_head with rfl | ⟨r, hcall, hrest⟩
  · exact hp
  · exact h r hcall q hrest

end Rewinds

variable {definitions : Definitions} {A : Parser → Cursor → Cursor → Prop} {p : Parser}
  {c r : Cursor}

/-- A leaf that fails gives back its entry. -/
theorem Acts.rewinds (h : Acts p c r) (hc : c.failed = false) (hr : r.failed = true) :
    ∃ e, r = c.withError e := by
  rcases h.advances hc with (⟨hok, _⟩ | ⟨e, he, _⟩) | ⟨d, _, hd⟩
  · rw [hok] at hr; cases hr
  · exact ⟨e, he⟩
  · exact ⟨d, hd⟩

/-- One level that fails gives back its entry, if what it hands on does. -/
theorem Step.rewinds (hp : ¬ p.Strays) (hc : c.failed = false)
    (hA : ∀ q, HandsOn definitions p q → ∀ f, A q c f → f.failed = true → ∃ e, f = c.withError e)
    (h : Step definitions A p c r) (hr : r.failed = true) : ∃ e, r = c.withError e := by
  cases h with
  | leaf hact => exact hact.rewinds hc hr
  | sequenceFails | choiceFails | many1Fails | exactlyFails | peekFails => exact ⟨_, rfl⟩
  | chain | chainFails | untilStop | untilStopFails | custom => exact (hp trivial).elim
  | upToFails hbody hf => exact hA _ .upTo _ hbody hf
  | mapFails hbody hf => exact hA _ .map _ hbody hf
  | mapIndexedFails hbody hf => exact hA _ .mapIndexed _ hbody hf
  | taggedFails hbody hf => exact hA _ .tagged _ hbody hf
  | mapError hbody hf =>
    obtain ⟨e, rfl⟩ := hA _ .mapError _ hbody hf
    exact ⟨_, rfl⟩
  | named hbody => exact hA _ .named _ hbody hr
  | definition hbody => exact hA _ .definition _ hbody hr
  -- What is left are the ways in which a level succeeds.
  | choice _ _ hok | optional _ hok | mapErrorPasses _ hok => rw [hok] at hr; cases hr
  | sequence | exactly | upToNone | optionalSkips | peek =>
    have hentry : c.failed = true := hr
    rw [hc] at hentry; cases hentry
  | many hpasses | many1 hpasses | upToAll hpasses | upToSome _ hpasses =>
    rw [Cursor.failed_withResult, hpasses.failed_eq_false hc] at hr; cases hr
  | map _ hm | mapIndexed _ hm | tagged _ hm =>
    rw [Cursor.failed_withResult, hm] at hr; cases hr

theorem run_rewinds {levels : Nat} (hp : p.Rewinds definitions) (hc : c.failed = false)
    (h : p.runFor definitions levels c = .value r) (hr : r.failed = true) :
    ∃ e, r = c.withError e := by
  have hany : p.Throughout definitions fun _ => True := fun _ _ => trivial
  refine run_induction (R := fun p c r => p.Rewinds definitions → r.failed = true →
    ∃ e, r = c.withError e) ?_ hany hc h hp hr
  intro A p c r _ hc hA hstep hp hr
  refine hstep.rewinds hp.here hc (fun q hq f hf hfailed => ?_) hr
  exact hA q hq.calls c f hc hf (hp.handsOn hq) hfailed

/-- A run that fails gives back the source, the offset and the result of its entry, unless it hands
on the failure of a parser that strays. -/
theorem failure_rewinds {levels : Nat} (hp : p.Rewinds definitions) (hc : c.failed = false)
    (h : p.runFor definitions levels c = .value r) (hr : r.failed = true) :
    r.source = c.source ∧ r.offset = c.offset ∧ r.result = c.result := by
  obtain ⟨e, rfl⟩ := run_rewinds hp hc h hr
  exact ⟨rfl, rfl, rfl⟩

/-- A chain inside a sequence: the chain fails ahead, and the sequence goes back. -/
theorem failure_rewinds_sequence :
    ∃ r, runFor [] 4 (.tagged (.sequence [.literal "a", .chain (.literal "b") fun _ => .literal "c"]
        false) "abc") ⟨.ofBytes #[0x61, 0x62, 0x78], 0, .int 7, none⟩ = .value r ∧
      r.failed = true ∧ r.offset = 0 ∧ r.result = .int 7 := by
  have hp : (tagged (.sequence [.literal "a", .chain (.literal "b") fun _ => .literal "c"] false)
      "abc").Rewinds [] := by
    refine .intro (fun h => h) fun q hq => ?_
    cases hq
    exact .intro (fun h => h) fun q hq => by cases hq
  obtain ⟨r, hrun, hr⟩ : ∃ r, runFor [] 4 (.tagged (.sequence [.literal "a",
      .chain (.literal "b") fun _ => .literal "c"] false) "abc")
      ⟨.ofBytes #[0x61, 0x62, 0x78], 0, .int 7, none⟩ = .value r ∧ r.failed = true := ⟨_, rfl, rfl⟩
  obtain ⟨_, hoffset, hresult⟩ := failure_rewinds hp rfl hrun hr
  exact ⟨r, hrun, hr, hoffset, hresult⟩

/-! The two that stray. -/

/-- A chain fails at its entry if its first parser does, and otherwise where that one has come
to. -/
theorem chain_fails {levels : Nat} {first : Parser} {next : Value → Parser}
    (hfirst : first.Rewinds definitions) (hnext : ∀ v, (next v).Rewinds definitions)
    (hc : c.failed = false) (h : runFor definitions (levels + 1) (.chain first next) c = .value r)
    (hr : r.failed = true) :
    (∃ e, r = c.withError e) ∨
      ∃ m e, first.runFor definitions levels c = .value m ∧ m.failed = false ∧
      r = m.withError e := by
  simp only [runFor, hc, Bool.false_eq_true, if_false] at h
  cases step_of_runWith h with
  | leaf hact => cases hact
  | chainFails hrun hf => exact .inl (run_rewinds hfirst hc hrun hf)
  | @chain _ _ _ m _ hrun hm hbehind =>
    obtain ⟨e, he⟩ := run_rewinds (hnext m.result) hm hbehind hr
    exact .inr ⟨m, e, hrun, hm, he⟩

/-- A repetition until a stop fails where its rounds have come to. -/
theorem untilStop_fails {levels : Nat} {stop body : Parser} (hstop : stop.Rewinds definitions)
    (hc : c.failed = false)
    (h : runFor definitions (levels + 1) (.untilStop stop body) c = .value r)
    (hr : r.failed = true) :
    ∃ k rs last e, Passes (Pending (Gives (runFor definitions levels)) stop) (List.replicate k body)
      c rs last ∧ r = last.withError e := by
  simp only [runFor, hc, Bool.false_eq_true, if_false] at h
  cases step_of_runWith h with
  | leaf hact => cases hact
  | untilStop hpasses =>
    rw [Cursor.failed_withResult, hpasses.failed_eq_false hc] at hr; cases hr
  | @untilStopFails _ _ _ k rs last _ _ hpasses hlook hs =>
    obtain ⟨e, he⟩ := run_rewinds hstop (hpasses.failed_eq_false hc) hlook hs
    exact ⟨k, rs, last, e, hpasses, he⟩

/-- A library parser can fail and leave the cursor elsewhere: behind the first `a` of a chain that
asks for two of them, and before the letter at which digits end that should go up to a semicolon. -/
theorem failure_need_not_rewind :
    (∃ r, runFor [] 2 (.chain (.literal "a") fun _ => .literal "a")
        (.ofSource (.ofBytes #[0x61, 0x62])) = .value r ∧ r.failed = true ∧
      (r.offset ≠ 0 ∧ r.result.same .nothing = false)) ∧
    ∃ r, runFor [] 5 (.untilStop (.literal ";") digit)
        (.ofSource (.ofBytes #[0x31, 0x32, 0x78, 0x3B])) = .value r ∧ r.failed = true ∧
      (r.offset ≠ 0 ∧ r.result.same .nothing = false) :=
  ⟨⟨_, rfl, rfl, by decide, rfl⟩, ⟨_, rfl, rfl, by decide, rfl⟩⟩

end Scannerless.Parser
