import Scannerless.Proofs.Settling
import Scannerless.Proofs.Step

/-!
# The result of an earlier parse does not steer the next

A cursor carries the result of the parser before, and options, lookahead and assertions hand it on.
Two runs from the same place with different results stay together all the same: they succeed or fail
alike, at the same offset and with the same failure, and one comes to an end where the other does.
Only what is made of results may differ. The argument carries the relation between the two runs
through each loop and one level, and then by induction on the levels.
-/
namespace Scannerless

namespace Outcome

variable {α β γ δ : Type}

/-- Where neither raises, both say values that are related, or both are unfinished. One may be
unfinished alone only if something `hangs`: a function of the author that never answers. -/
def Together (hangs : Prop) (R : α → β → Prop) : Outcome α → Outcome β → Prop
  | .value a, .value b => R a b
  | .value _, .unfinished => hangs
  | .unfinished, .value _ => hangs
  | _, _ => True

namespace Together

variable {hangs : Prop} {R : α → β → Prop} {S : γ → δ → Prop} {x : Outcome α} {y : Outcome β}

theorem value {a : α} {b : β} (h : R a b) : Together hangs R (.value a) (.value b) := h

theorem unfinished : Together hangs R .unfinished .unfinished := trivial

theorem unfinished_left (h : hangs) (y : Outcome β) :
    Together hangs R (.unfinished : Outcome α) y := by
  cases y with
  | value => exact h
  | raised | unfinished => trivial

theorem unfinished_right (h : hangs) (x : Outcome α) :
    Together hangs R x (.unfinished : Outcome β) := by
  cases x with
  | value => exact h
  | raised | unfinished => trivial

theorem raised_left (fault : Fault) (y : Outcome β) :
    Together hangs R (.raised fault : Outcome α) y := by
  cases y <;> trivial

theorem raised_right (x : Outcome α) (fault : Fault) :
    Together hangs R x (.raised fault : Outcome β) := by
  cases x <;> trivial

theorem bind {f : α → Outcome γ} {g : β → Outcome δ} (h : Together hangs R x y)
    (hfg : ∀ a b, R a b → Together hangs S (f a) (g b)) :
    Together hangs S (x >>= f) (y >>= g) := by
  cases x with
  | value a =>
    cases y with
    | value b => exact hfg a b h
    | raised fault => exact .raised_right _ fault
    | unfinished => exact .unfinished_right h _
  | raised fault => exact .raised_left fault _
  | unfinished =>
    cases y with
    | value b => exact .unfinished_left h _
    | raised | unfinished => trivial

theorem refl (x : Outcome α) : Together hangs Eq x x := by
  cases x with
  | value => exact rfl
  | raised | unfinished => trivial

/-- Answers of which nothing is known, but that they come unless something hangs. -/
theorem any (hx : hangs ∨ x ≠ .unfinished) (hy : hangs ∨ y ≠ .unfinished) :
    Together hangs (fun _ _ => True) x y := by
  cases x with
  | raised fault => exact .raised_left fault y
  | value a =>
    cases y with
    | value | raised => trivial
    | unfinished => exact hy.resolve_right fun h => h rfl
  | unfinished =>
    cases y with
    | value b => exact hx.resolve_right fun h => h rfl
    | raised | unfinished => trivial

theorem related {a : α} {b : β} (h : Together hangs R x y) (hx : x = .value a)
    (hy : y = .value b) : R a b := by
  subst hx hy
  exact h

/-- Where nothing hangs and neither raises, both come to an end or neither does. -/
theorem alike (h : Together False R x y) (hx : ∀ fault, x ≠ .raised fault)
    (hy : ∀ fault, y ≠ .raised fault) :
    (x = .unfinished ∧ y = .unfinished) ∨ ∃ a b, x = .value a ∧ y = .value b ∧ R a b := by
  cases x with
  | value a =>
    cases y with
    | value b => exact .inr ⟨a, b, rfl, rfl, h⟩
    | raised fault => exact absurd rfl (hy fault)
    | unfinished => exact h.elim
  | raised fault => exact absurd rfl (hx fault)
  | unfinished =>
    cases y with
    | value => exact h.elim
    | raised fault => exact absurd rfl (hy fault)
    | unfinished => exact .inl ⟨rfl, rfl⟩

end Together

end Outcome

open Outcome

namespace Cursor

/-- The same source, offset and failure; the results may differ. -/
structure SamePlace (c d : Cursor) : Prop where
  source_eq : d.source = c.source
  offset_eq : d.offset = c.offset
  error_eq : d.error = c.error

namespace SamePlace

variable {c d m n : Cursor}

theorem failed_eq (h : c.SamePlace d) : d.failed = c.failed := by
  rw [failed, h.error_eq, failed]

theorem eq_withResult (h : c.SamePlace d) : d = c.withResult d.result c.offset := by
  obtain ⟨source, offset, result, error⟩ := d
  obtain ⟨rfl, rfl, rfl⟩ := h
  rfl

theorem withResult (h : c.SamePlace d) (hmn : m.SamePlace n) (v w : Value) :
    (c.withResult v m.offset).SamePlace (d.withResult w n.offset) :=
  ⟨h.source_eq, hmn.offset_eq, h.error_eq⟩

theorem moved (h : c.SamePlace d) (v : Value) (offset : Int) :
    (c.withResult v offset).SamePlace (d.withResult v offset) :=
  ⟨h.source_eq, rfl, h.error_eq⟩

theorem withError (h : c.SamePlace d) (e : Diagnostic) :
    (c.withError e).SamePlace (d.withError e) :=
  ⟨h.source_eq, h.offset_eq, rfl⟩

theorem complain (h : c.SamePlace d) (complaint : Complaint) :
    (c.complain complaint).SamePlace (d.complain complaint) := by
  rw [Cursor.complain, Cursor.complain, h.offset_eq]
  exact h.withError _

theorem collect (h : c.SamePlace d) (hmn : m.SamePlace n) (rs ss : List Value) :
    (c.collect rs m.offset).SamePlace (d.collect ss n.offset) :=
  h.withResult hmn _ _

/-! Matchers. -/

theorem refuse (h : c.SamePlace d) (complaint : Option Complaint) (usual : Diagnostic) :
    (c.refuse complaint usual).SamePlace (d.refuse complaint usual) := by
  unfold Cursor.refuse
  rw [h.offset_eq]
  split <;> exact h.withError _

theorem matchRune {hangs : Prop} (h : c.SamePlace d) (accepts : Char → Outcome Bool)
    (complaint : Option Complaint) (what : String) :
    Together hangs SamePlace (c.matchRune accepts complaint what)
      (d.matchRune accepts complaint what) := by
  unfold Cursor.matchRune Cursor.readRune
  rw [h.source_eq, h.offset_eq]
  split
  · exact .value (h.refuse complaint _)
  · refine .bind (.refl _) fun accepted _ hsame => ?_
    subst hsame
    split
    · exact .value (h.moved _ _)
    · exact .value (h.refuse complaint _)

theorem matchRunes {hangs : Prop} (h : c.SamePlace d) (accepts : Char → Outcome Bool)
    (complaint : Option Complaint) (what : String) :
    Together hangs SamePlace (c.matchRunes accepts complaint what)
      (d.matchRunes accepts complaint what) := by
  unfold Cursor.matchRunes
  rw [h.source_eq, h.offset_eq]
  refine .bind (.refl _) fun found _ hsame => ?_
  subst hsame
  split
  · exact .value (h.refuse complaint _)
  · exact .value (h.moved _ _)

theorem matchRuneCount (h : c.SamePlace d) (count : Nat) :
    (c.matchRuneCount count).SamePlace (d.matchRuneCount count) := by
  rw [Cursor.matchRuneCount_eq, Cursor.matchRuneCount_eq]
  rw [h.source_eq, h.offset_eq]
  split
  · exact h.withError _
  · exact h.moved _ _

theorem matchLiteral (h : c.SamePlace d) (text : String) :
    (c.matchLiteral text).SamePlace (d.matchLiteral text) := by
  unfold Cursor.matchLiteral Cursor.readBytes
  rw [h.source_eq, h.offset_eq]
  simp only
  split
  · exact h.moved _ _
  · exact h.withError _

theorem matchFoldedLiteral (h : c.SamePlace d) (text : String) :
    (c.matchFoldedLiteral text).SamePlace (d.matchFoldedLiteral text) := by
  unfold Cursor.matchFoldedLiteral Cursor.readBytes
  rw [h.source_eq, h.offset_eq]
  simp only
  split
  · exact h.moved _ _
  · exact h.withError _

theorem matchStartOfInput (h : c.SamePlace d) :
    c.matchStartOfInput.SamePlace d.matchStartOfInput := by
  unfold Cursor.matchStartOfInput
  rw [h.offset_eq]
  split
  · exact h
  · exact h.withError _

theorem matchEndOfInput (h : c.SamePlace d) : c.matchEndOfInput.SamePlace d.matchEndOfInput := by
  unfold Cursor.matchEndOfInput
  rw [h.source_eq, h.offset_eq]
  split
  · exact h
  · exact h.withError _

theorem matchStartOfLine (h : c.SamePlace d) : c.matchStartOfLine.SamePlace d.matchStartOfLine := by
  unfold Cursor.matchStartOfLine
  rw [h.source_eq, h.offset_eq]
  split
  · exact h
  · split
    · exact h
    · exact h.withError _

end SamePlace

/-! Loops. What was collected differs, but there is as much of it. -/

section Loops

variable {hangs : Prop} {attempt : Parser → Cursor → Outcome Cursor}

/-- The attempt keeps two cursors together that stand at the same place. -/
def KeepsTogether (hangs : Prop) (attempt : Cursor → Outcome Cursor) : Prop :=
  ∀ c d, c.SamePlace d → Together hangs SamePlace (attempt c) (attempt d)

theorem runParts_together {parts : List Parser}
    (hparts : ∀ q ∈ parts, KeepsTogether hangs (attempt q)) (dropNothing : Bool) {c d m n : Cursor}
    (hcd : c.SamePlace d) (hmn : m.SamePlace n) (rs ss : List Value) :
    Together hangs SamePlace (runParts attempt dropNothing c parts m rs)
      (runParts attempt dropNothing d parts n ss) := by
  induction parts generalizing m n rs ss with
  | nil => exact .value (hcd.collect hmn rs ss)
  | cons part rest ih =>
    obtain ⟨hpart, hrest⟩ := List.forall_mem_cons.mp hparts
    rw [runParts_cons, runParts_cons]
    refine .bind (hpart m n hmn) fun next next' hnext => ?_
    rw [hnext.error_eq]
    cases next.error with
    | some e => exact .value (hcd.withError e)
    | none =>
      -- Either run may drop a result that the other keeps.
      have hgo : ∀ rs ss, Together hangs SamePlace (runParts attempt dropNothing c rest next rs)
          (runParts attempt dropNothing d rest next' ss) := fun rs ss => ih hrest hnext rs ss
      simp only
      split <;> split <;> exact hgo _ _

theorem runAlternatives_together {alternatives : List Parser}
    (h : ∀ q ∈ alternatives, KeepsTogether hangs (attempt q)) {c d : Cursor} (hcd : c.SamePlace d) :
    Together hangs SamePlace (c.runAlternatives attempt alternatives)
      (d.runAlternatives attempt alternatives) := by
  induction alternatives with
  | nil =>
    rw [runAlternatives, runAlternatives, hcd.offset_eq]
    exact .value (hcd.withError _)
  | cons alternative rest ih =>
    obtain ⟨hfirst, hrest⟩ := List.forall_mem_cons.mp h
    rw [runAlternatives_cons, runAlternatives_cons]
    refine .bind (hfirst c d hcd) fun next next' hnext => ?_
    rw [hnext.failed_eq]
    split
    · exact ih hrest
    · exact .value hnext

variable {body stop : Cursor → Outcome Cursor}

/-- As many results on both sides, and the same place. -/
def SameRounds (x y : List Value × Cursor) : Prop :=
  y.1.length = x.1.length ∧ x.2.SamePlace y.2

theorem SameRounds.isEmpty_eq {x y : List Value × Cursor} (h : SameRounds x y) :
    y.1.isEmpty = x.1.isEmpty := by
  rw [Bool.eq_iff_iff, List.isEmpty_iff_length_eq_zero, List.isEmpty_iff_length_eq_zero, h.1]

theorem repeatAll_together (hbody : KeepsTogether hangs body) (steps : Nat) {m n : Cursor}
    {rs ss : List Value} (hrounds : SameRounds (rs, m) (ss, n)) :
    Together hangs SameRounds (repeatAll body steps m rs) (repeatAll body steps n ss) := by
  induction steps generalizing m n rs ss with
  | zero => exact .unfinished
  | succ steps ih =>
    obtain ⟨hlength, hmn⟩ := hrounds
    rw [repeatAll_succ, repeatAll_succ]
    refine .bind (hbody m n hmn) fun next next' hnext => ?_
    rw [hnext.failed_eq]
    split
    · exact .value ⟨hlength, hmn⟩
    · exact ih ⟨congrArg Nat.succ hlength, hnext⟩

theorem repeatExactly_together (hbody : KeepsTogether hangs body) (count left : Nat)
    {c d m n : Cursor} (hcd : c.SamePlace d) (hmn : m.SamePlace n) (rs ss : List Value) :
    Together hangs SamePlace (repeatExactly body count c left m rs)
      (repeatExactly body count d left n ss) := by
  induction left generalizing m n rs ss with
  | zero => exact .value (hcd.collect hmn rs ss)
  | succ left ih =>
    rw [repeatExactly_succ, repeatExactly_succ]
    refine .bind (hbody m n hmn) fun next next' hnext => ?_
    rw [hnext.failed_eq, hcd.offset_eq]
    split
    · exact .value (hcd.withError _)
    · exact ih hnext _ _

theorem repeatUpTo_together (hbody : KeepsTogether hangs body) (left : Nat) {m n : Cursor}
    {rs ss : List Value} (hrounds : SameRounds (rs, m) (ss, n)) :
    Together hangs SamePlace (repeatUpTo body left m rs) (repeatUpTo body left n ss) := by
  induction left generalizing m n rs ss with
  | zero => exact .value (hrounds.2.collect hrounds.2 rs ss)
  | succ left ih =>
    obtain ⟨hlength, hmn⟩ := hrounds
    have hempty : ss.isEmpty = rs.isEmpty := SameRounds.isEmpty_eq ⟨hlength, hmn⟩
    rw [repeatUpTo_succ, repeatUpTo_succ]
    refine .bind (hbody m n hmn) fun next next' hnext => ?_
    rw [hnext.failed_eq, hempty]
    split
    · split
      · exact .value hnext
      · exact .value (hmn.collect hmn rs ss)
    · exact ih ⟨congrArg Nat.succ hlength, hnext⟩

theorem repeatUntil_together (hstop : KeepsTogether hangs stop) (hbody : KeepsTogether hangs body)
    (steps : Nat) {m n : Cursor} (hmn : m.SamePlace n) (rs ss : List Value) :
    Together hangs SamePlace (repeatUntil stop body steps m rs)
      (repeatUntil stop body steps n ss) := by
  induction steps generalizing m n rs ss with
  | zero => exact .unfinished
  | succ steps ih =>
    rw [repeatUntil_succ, repeatUntil_succ]
    refine .bind (hstop m n hmn) fun stopped stopped' hstopped => ?_
    rw [hstopped.failed_eq]
    split
    · refine .bind (hbody m n hmn) fun next next' hnext => ?_
      rw [hnext.failed_eq]
      split
      · exact .value hstopped
      · exact ih hnext _ _
    · exact .value (hmn.collect hmn rs ss)

end Loops

end Cursor

namespace Parser

open Cursor

/-- A parser that is not a chain, whose continuation is chosen by a result, nor the author's own
function; and where it words a failure anew, it does so without the result of the failed cursor. -/
def IgnoresResult : Parser → Prop
  | chain _ _ => False
  | custom _ _ => False
  | mapError _ explain => ∀ f v, explain (f.withResult v f.offset) = explain f
  | _ => True

/-- A level that goes on only behind a success. -/
theorem unless_failed_together {hangs : Prop} {x y : Outcome Cursor}
    {go go' : Cursor → Outcome Cursor} (h : Together hangs SamePlace x y)
    (hgo : ∀ m n, m.SamePlace n → Together hangs SamePlace (go m) (go' n)) :
    Together hangs SamePlace (x >>= fun m => if m.failed then pure m else go m)
      (y >>= fun n => if n.failed then pure n else go' n) := by
  refine .bind h fun m n hmn => ?_
  rw [hmn.failed_eq]
  split
  · exact .value hmn
  · exact hgo m n hmn

variable {hangs : Prop} {definitions : Definitions} {attempt : Parser → Cursor → Outcome Cursor}
  {p : Parser}

/-- One level keeps two cursors together if all that it calls does. -/
theorem runWith_together {steps : Nat} (hnode : p.IgnoresResult) (hends : hangs ∨ p.CallbacksEnd)
    (hattempt : ∀ q, Calls definitions p q → KeepsTogether hangs (attempt q)) :
    KeepsTogether hangs (runWith definitions attempt steps p) := by
  intro c d hcd
  cases p with
  | rune accepts complaint what => exact hcd.matchRune accepts complaint what
  | runes accepts complaint what => exact hcd.matchRunes accepts complaint what
  | runeCount count => exact .value (hcd.matchRuneCount count)
  | literal text => exact .value (hcd.matchLiteral text)
  | foldedLiteral text => exact .value (hcd.matchFoldedLiteral text)
  | succeed value => exact .value (hcd.withResult hcd value value)
  | fail complaint => exact .value (hcd.complain complaint)
  | startOfInput => exact .value hcd.matchStartOfInput
  | endOfInput => exact .value hcd.matchEndOfInput
  | startOfLine => exact .value hcd.matchStartOfLine
  | sequence parts dropNothing =>
    exact runParts_together (fun q hq => hattempt q (.sequence hq)) dropNothing hcd hcd [] []
  | choice alternatives => exact runAlternatives_together (fun q hq => hattempt q (.choice hq)) hcd
  | chain => exact hnode.elim
  | many body =>
    refine .bind (repeatAll_together (hattempt _ .many) steps ⟨rfl, hcd⟩) fun x y hxy => ?_
    exact .value (hxy.2.collect hxy.2 x.1 y.1)
  | many1 body =>
    refine .bind (repeatAll_together (hattempt _ .many1) steps ⟨rfl, hcd⟩) fun x y hxy => ?_
    simp only
    rw [hxy.isEmpty_eq, hcd.offset_eq]
    split
    · exact .value (hcd.withError _)
    · exact .value (hxy.2.collect hxy.2 x.1 y.1)
  | exactly count body =>
    exact repeatExactly_together (hattempt _ .exactly) count count hcd hcd [] []
  | upTo count body =>
    simp only [runWith]
    split
    · exact .value hcd
    · exact repeatUpTo_together (hattempt _ .upTo) count ⟨rfl, hcd⟩
  | untilStop stop body =>
    exact repeatUntil_together (hattempt _ .untilStop) (hattempt _ .untilBody) steps hcd [] []
  | optional body =>
    refine .bind (hattempt _ .optional c d hcd) fun m n hmn => ?_
    rw [hmn.failed_eq]
    split
    · exact .value hcd
    · exact .value hmn
  | peek body =>
    refine .bind (hattempt _ .peek c d hcd) fun m n hmn => ?_
    rw [hmn.failed_eq, hcd.offset_eq]
    split
    · exact .value (hcd.withError _)
    · exact .value hcd
  -- The functions of the author see different results and may give different ones.
  | map body transform =>
    refine unless_failed_together (hattempt _ .map c d hcd) fun m n hmn => ?_
    have hanswers : ∀ v, hangs ∨ transform v ≠ .unfinished := fun v => hends.imp_right fun h => h v
    exact .bind (.any (hanswers _) (hanswers _)) fun v w _ => .value (hmn.withResult hmn v w)
  | mapIndexed body transform =>
    refine unless_failed_together (hattempt _ .mapIndexed c d hcd) fun m n hmn => ?_
    have hanswers : ∀ v o, hangs ∨ transform v o ≠ .unfinished :=
      fun v o => hends.imp_right fun h => h v o
    exact .bind (.any (hanswers _ _) (hanswers _ _)) fun v w _ => .value (hmn.withResult hmn v w)
  | mapError body explain =>
    refine .bind (hattempt _ .mapError c d hcd) fun m n hmn => ?_
    have hexplain : explain n = explain m := by
      rw [hmn.eq_withResult]
      exact hnode m n.result
    rw [hmn.failed_eq, hexplain]
    split
    · exact .bind (.refl _) fun complaint _ hsame => hsame ▸ .value (hmn.complain complaint)
    · exact .value hmn
  | tagged body label =>
    refine unless_failed_together (hattempt _ .tagged c d hcd) fun m n hmn => ?_
    have hspan : Span.between d.offset n.offset = Span.between c.offset m.offset := by
      rw [hcd.offset_eq, hmn.offset_eq]
    rw [hspan]
    exact .bind (.refl _) fun span _ _ => .value (hmn.withResult hmn _ _)
  | named body name => exact hattempt _ .named c d hcd
  | definition name => exact hattempt _ .definition c d hcd
  | custom => exact hnode.elim
  | invalid fault => exact .raised_left fault _

theorem runFor_together (levels : Nat) (hp : p.Throughout definitions IgnoresResult)
    (hends : hangs ∨ p.Throughout definitions CallbacksEnd) :
    KeepsTogether hangs (p.runFor definitions levels) := by
  induction levels generalizing p with
  | zero => exact fun _ _ _ => .unfinished
  | succ levels ih =>
    intro c d hcd
    simp only [runFor]
    rw [hcd.failed_eq]
    split
    · exact .value hcd
    · exact runWith_together hp.here (hends.imp_right fun h => h.here)
        (fun q hq => ih (hp.call hq) (hends.imp_right fun h => h.call hq)) c d hcd

/-- The result that a cursor carries does not steer a parse. With another one in its place the parse
succeeds or fails as before, at the same offset and with the same failure. If the author's functions
all come back and neither parse raises anything, they also come to an end together: with any number
of levels both are unfinished, or both give cursors that agree in this way. -/
theorem previous_result_does_not_steer (hp : p.Throughout definitions IgnoresResult) {c d : Cursor}
    (hsource : d.source = c.source) (hoffset : d.offset = c.offset) (hc : c.failed = false)
    (hd : d.failed = false) :
    (∀ levels levels' r r', p.runFor definitions levels c = .value r →
      p.runFor definitions levels' d = .value r' →
      r'.failed = r.failed ∧ r'.offset = r.offset ∧ r'.error = r.error) ∧
    (p.Throughout definitions CallbacksEnd → ∀ levels,
      (∀ fault, p.runFor definitions levels c ≠ .raised fault) →
      (∀ fault, p.runFor definitions levels d ≠ .raised fault) →
      (p.runFor definitions levels c = .unfinished ∧ p.runFor definitions levels d = .unfinished) ∨
      ∃ r r', p.runFor definitions levels c = .value r ∧ p.runFor definitions levels d = .value r' ∧
        r'.failed = r.failed ∧ r'.offset = r.offset ∧ r'.error = r.error) := by
  have herror : d.error = c.error :=
    (Cursor.not_failed_iff.mp hd).trans (Cursor.not_failed_iff.mp hc).symm
  have hcd : c.SamePlace d := ⟨hsource, hoffset, herror⟩
  constructor
  · intro levels levels' r r' h h'
    -- Both runs are given the larger number of levels.
    have hmore : p.runFor definitions (max levels levels') c = .value r := by
      rw [runFor_eq_of_le (Nat.le_max_left levels levels') (by rw [h]; exact nofun), h]
    have hmore' : p.runFor definitions (max levels levels') d = .value r' := by
      rw [runFor_eq_of_le (Nat.le_max_right levels levels') (by rw [h']; exact nofun), h']
    have htogether := runFor_together (max levels levels') hp (.inl True.intro) c d hcd
    have hsame := htogether.related hmore hmore'
    exact ⟨hsame.failed_eq, hsame.offset_eq, hsame.error_eq⟩
  · intro hends levels hraise hraise'
    have htogether : Together False SamePlace (p.runFor definitions levels c)
        (p.runFor definitions levels d) := runFor_together levels hp (.inr hends) c d hcd
    refine (htogether.alike hraise hraise').imp_right fun ⟨r, r', hr, hr', hsame⟩ => ?_
    exact ⟨r, r', hr, hr', hsame.failed_eq, hsame.offset_eq, hsame.error_eq⟩

/-- An option and a lookahead leak the result that they find into a sequence. -/
def leaky : Parser :=
  .sequence [.optional (.literal "x"), .peek (.literal "a"), .many (.literal "a")] true

theorem leaky_throughout {P : Parser → Prop} (hleaky : P leaky)
    (hliteral : ∀ text, P (.literal text)) (hoptional : P (.optional (.literal "x")))
    (hpeek : P (.peek (.literal "a"))) (hmany : P (.many (.literal "a"))) :
    leaky.Throughout [] P := by
  have hleaf : ∀ text, (literal text).Throughout [] P := fun text => .intro (hliteral text) nofun
  refine .intro hleaky fun q hq => ?_
  cases hq with
  | sequence hmem =>
    simp only [List.mem_cons, List.not_mem_nil, or_false] at hmem
    rcases hmem with rfl | rfl | rfl
    · exact .intro hoptional fun q hq => by cases hq; exact hleaf "x"
    · exact .intro hpeek fun q hq => by cases hq; exact hleaf "a"
    · exact .intro hmany fun q hq => by cases hq; exact hleaf "a"

/-- The leaked result comes out in the result of the sequence, and nowhere else. -/
theorem previous_result_does_not_steer_options :
    ∃ r r', leaky.runFor [] 5 ⟨.ofBytes #[0x61, 0x61, 0x62], 0, .nothing, none⟩ = .value r ∧
      leaky.runFor [] 5 ⟨.ofBytes #[0x61, 0x61, 0x62], 0, .int 7, none⟩ = .value r' ∧
      r'.offset = r.offset ∧ r.result.length? = some 1 ∧ r'.result.length? = some 3 := by
  have hp : leaky.Throughout [] IgnoresResult :=
    leaky_throughout trivial (fun _ => trivial) trivial trivial trivial
  have hends : leaky.Throughout [] CallbacksEnd :=
    leaky_throughout trivial (fun _ => trivial) trivial trivial trivial
  obtain ⟨r, hrun, hr⟩ : ∃ r,
      leaky.runFor [] 5 ⟨.ofBytes #[0x61, 0x61, 0x62], 0, .nothing, none⟩ = .value r ∧
        r.result.length? = some 1 := ⟨_, rfl, rfl⟩
  obtain ⟨r', hrun', hr'⟩ : ∃ r',
      leaky.runFor [] 5 ⟨.ofBytes #[0x61, 0x61, 0x62], 0, .int 7, none⟩ = .value r' ∧
        r'.result.length? = some 3 := ⟨_, rfl, rfl⟩
  obtain ⟨-, halike⟩ := @previous_result_does_not_steer [] leaky hp
    ⟨.ofBytes #[0x61, 0x61, 0x62], 0, .nothing, none⟩
      ⟨.ofBytes #[0x61, 0x61, 0x62], 0, .int 7, none⟩
    rfl rfl rfl rfl
  rcases halike hends 5 (by rw [hrun]; nofun) (by rw [hrun']; nofun) with ⟨hnever, -⟩ | hboth
  · rw [hrun] at hnever
    cases hnever
  · obtain ⟨s, s', hs, hs', -, hoffset, -⟩ := hboth
    obtain rfl := Outcome.value.inj (hrun.symm.trans hs)
    obtain rfl := Outcome.value.inj (hrun'.symm.trans hs')
    exact ⟨r, r', hrun, hrun', hoffset, hr, hr'⟩

end Parser

end Scannerless
