import Scannerless.Parser.Build
import Scannerless.Proofs.Progress
import Scannerless.Proofs.Runes

/-!
# A parse does not depend on where its bytes stand

A parse from some offset of a source and the parse of the bytes from there on, on their own, go the
same way: both raise the same fault, both succeed or both fail, with equal results, and every offset
of the one is that of the other and the bytes in front. What a parser must not do for this is ask
where it stands. The relation between the two runs is carried through the matchers, each loop and
one level, and then by induction on the levels.
-/
namespace Scannerless

open Outcome

/-- The failure of the same step, with `k` bytes more in front of it. -/
def Diagnostic.shifted (k : Nat) (e : Diagnostic) : Diagnostic :=
  { e with offset := e.offset + k }

namespace Source

variable {s t : Source} {k : Nat} {o : Int}

/-- `t` holds the bytes of `s` from `k` on. -/
structure Continues (k : Nat) (s t : Source) : Prop where
  le_size : k ≤ s.size
  bytes_eq : t.bytes.toList = s.bytes.toList.drop k

namespace Continues

theorem size_eq (h : Continues k s t) : s.size = t.size + k := by
  have hlength := congrArg List.length h.bytes_eq
  have hle := h.le_size
  unfold size at hle ⊢
  rw [List.length_drop, Array.length_toList, Array.length_toList] at hlength
  omega

theorem bytesFrom_eq (h : Continues k s t) (ho : 0 ≤ o) : s.bytesFrom (o + k) = t.bytesFrom o := by
  rw [bytesFrom, bytesFrom, h.bytes_eq, List.drop_drop]
  congr 1
  omega

theorem read_eq (h : Continues k s t) (ho : 0 ≤ o) (count : Nat) :
    s.read (o + k) count = t.read o count := by
  rw [read_eq_take (by omega), read_eq_take ho, h.bytesFrom_eq ho]

theorem readRune_eq (h : Continues k s t) (ho : 0 ≤ o) : s.readRune (o + k) = t.readRune o := by
  rw [readRune_eq_decodeRune (by omega), readRune_eq_decodeRune ho, h.bytesFrom_eq ho]

theorem readRunesFrom_eq (h : Continues k s t) (ho : 0 ≤ o) (count : Nat) (runes : List Char) :
    s.readRunesFrom count (o + k) runes =
      (t.readRunesFrom count o runes).map fun (found, stop) => (found, stop + k) := by
  induction count generalizing o runes with
  | zero => rfl
  | succ count ih =>
    rw [readRunesFrom, readRunesFrom, h.readRune_eq ho]
    cases t.readRune o with
    | none => rfl
    | some rune =>
      have hrest := ih (o := o + rune.2) (by omega) (rune.1 :: runes)
      rwa [Int.add_right_comm] at hrest

/-- The same runes, and ends that differ in place only. -/
structure SameRun (k : Nat) (x y : List Char × Int) : Prop where
  runes_eq : x.1 = y.1
  nonneg : 0 ≤ y.2
  stop_eq : x.2 = y.2 + k

theorem runesWhileFrom_alike (h : Continues k s t) (ho : 0 ≤ o) (accepts : Char → Outcome Bool)
    (steps : Nat) (runes : List Char) :
    Alike (SameRun k) (s.runesWhileFrom accepts steps (o + k) runes)
      (t.runesWhileFrom accepts steps o runes) := by
  induction steps generalizing o runes with
  | zero => exact .value ⟨rfl, ho, rfl⟩
  | succ steps ih =>
    rw [runesWhileFrom, runesWhileFrom, h.readRune_eq ho]
    cases t.readRune o with
    | none => exact .value ⟨rfl, ho, rfl⟩
    | some rune =>
      have hrest := ih (o := o + rune.2) (by omega) (rune.1 :: runes)
      rw [Int.add_right_comm] at hrest
      refine .bind (.refl (accepts rune.1)) fun accepted _ hsame => ?_
      subst hsame
      split
      · exact hrest
      · exact .value ⟨rfl, ho, rfl⟩

theorem runesWhile_alike (h : Continues k s t) (ho : 0 ≤ o) (accepts : Char → Outcome Bool) :
    Alike (SameRun k) (s.runesWhile accepts (o + k)) (t.runesWhile accepts o) := by
  have hsize := h.size_eq
  -- The longer source allows more steps, which find nothing more in the shorter one.
  rw [← t.runesWhile_eq_of_size_le accepts (show t.size ≤ s.size by omega) ho]
  exact h.runesWhileFrom_alike ho accepts s.size []

end Continues

end Source

namespace Cursor

variable {k : Nat}

/-- `d` stands in the bytes from `k` on where `c` stands in all bytes. -/
structure Shifted (k : Nat) (c d : Cursor) : Prop where
  continues : Source.Continues k c.source d.source
  offset_eq : c.offset = d.offset + k
  nonneg : 0 ≤ d.offset
  result_eq : c.result = d.result
  error_eq : c.error = d.error.map (Diagnostic.shifted k)

namespace Shifted

variable {c d m n : Cursor}

theorem failed_eq (h : Shifted k c d) : c.failed = d.failed := by
  rw [failed, failed, h.error_eq, Option.isSome_map]

theorem withResult (h : Shifted k c d) (v : Value) {o o' : Int} (ho' : 0 ≤ o') (ho : o = o' + k) :
    Shifted k (c.withResult v o) (d.withResult v o') :=
  ⟨h.continues, ho, ho', rfl, h.error_eq⟩

theorem collect (h : Shifted k c d) (hmn : Shifted k m n) (rs : List Value) :
    Shifted k (c.collect rs m.offset) (d.collect rs n.offset) :=
  h.withResult _ hmn.nonneg hmn.offset_eq

theorem withError (h : Shifted k c d) {e e' : Diagnostic} (he : e = e'.shifted k) :
    Shifted k (c.withError e) (d.withError e') :=
  ⟨h.continues, h.offset_eq, h.nonneg, h.result_eq, congrArg some he⟩

/-- A failure that is anchored at the cursor. -/
theorem stays (h : Shifted k c d) (report : Int → Diagnostic)
    (hreport : ∀ o, report (o + k) = (report o).shifted k) :
    Shifted k (c.withError (report c.offset)) (d.withError (report d.offset)) := by
  rw [h.offset_eq]
  exact h.withError (hreport d.offset)

/-! Matchers. -/

theorem refuse (h : Shifted k c d) (complaint : Option Complaint) (usual : Int → Diagnostic)
    (husual : ∀ o, usual (o + k) = (usual o).shifted k) :
    Shifted k (c.refuse complaint (usual c.offset)) (d.refuse complaint (usual d.offset)) := by
  cases complaint with
  | none => exact h.stays usual husual
  | some complaint =>
    exact h.stays (fun o => complaint.moved o) fun o => by cases complaint <;> rfl

theorem readRune_eq (h : Shifted k c d) : c.readRune = d.readRune := by
  rw [readRune, readRune, h.offset_eq, h.continues.readRune_eq h.nonneg]

theorem readBytes_eq (h : Shifted k c d) (count : Nat) : c.readBytes count = d.readBytes count := by
  rw [readBytes, readBytes, h.offset_eq, h.continues.read_eq h.nonneg]

/-- Behind a number of bytes. -/
theorem moved (h : Shifted k c d) (v : Value) (width : Nat) :
    Shifted k (c.withResult v (c.offset + width)) (d.withResult v (d.offset + width)) := by
  have hoffset := h.offset_eq
  have hnonneg := h.nonneg
  exact h.withResult v (by omega) (by omega)

theorem matchRune (h : Shifted k c d) (accepts : Char → Outcome Bool) (complaint : Option Complaint)
    (what : String) :
    Alike (Shifted k) (c.matchRune accepts complaint what)
      (d.matchRune accepts complaint what) := by
  have hrefuse := h.refuse complaint (.runeMismatch · what) fun _ => rfl
  unfold Cursor.matchRune
  rw [h.readRune_eq]
  split
  · exact .value hrefuse
  · refine .bind (.refl _) fun accepted _ hsame => ?_
    subst hsame
    split
    · exact .value (h.moved _ _)
    · exact .value hrefuse

theorem matchRunes (h : Shifted k c d) (accepts : Char → Outcome Bool)
    (complaint : Option Complaint) (what : String) :
    Alike (Shifted k) (c.matchRunes accepts complaint what)
      (d.matchRunes accepts complaint what) := by
  have hrefuse := h.refuse complaint (.runesMismatch · what) fun _ => rfl
  have hwhile := h.continues.runesWhile_alike h.nonneg accepts
  rw [← h.offset_eq] at hwhile
  refine .bind hwhile fun (found, stop) (runes, stop') hsame => ?_
  obtain rfl : found = runes := hsame.runes_eq
  cases found with
  | nil => exact .value hrefuse
  | cons => exact .value (h.withResult _ hsame.nonneg hsame.stop_eq)

theorem matchRuneCount (h : Shifted k c d) (count : Nat) :
    Shifted k (c.matchRuneCount count) (d.matchRuneCount count) := by
  have hread := h.continues.readRunesFrom_eq h.nonneg count []
  rw [← h.offset_eq] at hread
  rw [Cursor.matchRuneCount_eq, Cursor.matchRuneCount_eq, Source.readRunes, Source.readRunes, hread]
  cases hfound : d.source.readRunesFrom count d.offset [] with
  | none => exact h.stays (.runeCountMismatch count ·) fun _ => rfl
  | some found =>
    have hle := (Source.readRunesFrom_bounds hfound).1
    have hnonneg := h.nonneg
    exact h.withResult _ (by omega) rfl

theorem matchLiteral (h : Shifted k c d) (text : String) :
    Shifted k (c.matchLiteral text) (d.matchLiteral text) := by
  unfold Cursor.matchLiteral
  simp only [h.readBytes_eq]
  split
  · exact h.moved _ _
  · exact h.stays (.literalMismatch text ·) fun _ => rfl

theorem matchFoldedLiteral (h : Shifted k c d) (text : String) :
    Shifted k (c.matchFoldedLiteral text) (d.matchFoldedLiteral text) := by
  unfold Cursor.matchFoldedLiteral
  simp only [h.readBytes_eq]
  split
  · exact h.moved _ _
  · exact h.stays (.literalMismatch text ·) fun _ => rfl

theorem matchEndOfInput (h : Shifted k c d) : Shifted k c.matchEndOfInput d.matchEndOfInput := by
  have hread : c.source.read (c.offset + 1) 1 = d.source.read (d.offset + 1) 1 := by
    have hnonneg := h.nonneg
    rw [h.offset_eq, Int.add_right_comm]
    exact h.continues.read_eq (by omega) 1
  unfold Cursor.matchEndOfInput
  rw [hread]
  split
  · exact h
  · exact h.stays .expectedEndOfInput fun _ => rfl

end Shifted

/-! Loops. Both runs collect the same results. -/

section Loops

variable {attempt : Parser → Cursor → Outcome Cursor}

/-- The attempt comes to the same at two cursors that differ in place only. -/
def KeepsShifted (k : Nat) (attempt : Cursor → Outcome Cursor) : Prop :=
  ∀ c d, Shifted k c d → Alike (Shifted k) (attempt c) (attempt d)

theorem runParts_shifted {parts : List Parser} (hparts : ∀ q ∈ parts, KeepsShifted k (attempt q))
    (dropNothing : Bool) {c d m n : Cursor} (hcd : Shifted k c d) (hmn : Shifted k m n)
    (rs : List Value) :
    Alike (Shifted k) (runParts attempt dropNothing c parts m rs)
      (runParts attempt dropNothing d parts n rs) := by
  induction parts generalizing m n rs with
  | nil => exact .value (hcd.collect hmn rs)
  | cons part rest ih =>
    obtain ⟨hpart, hrest⟩ := List.forall_mem_cons.mp hparts
    rw [runParts_cons, runParts_cons]
    refine .bind (hpart m n hmn) fun next next' hnext => ?_
    rw [hnext.error_eq, hnext.result_eq]
    cases next'.error with
    | some e => exact .value (hcd.withError rfl)
    | none =>
      simp only [Option.map_none]
      split
      · exact ih hrest hnext rs
      · exact ih hrest hnext (next'.result :: rs)

theorem runAlternatives_shifted {alternatives : List Parser}
    (h : ∀ q ∈ alternatives, KeepsShifted k (attempt q)) {c d : Cursor} (hcd : Shifted k c d) :
    Alike (Shifted k) (c.runAlternatives attempt alternatives)
      (d.runAlternatives attempt alternatives) := by
  induction alternatives with
  | nil => exact .value (hcd.stays .noChoiceMatched fun _ => rfl)
  | cons alternative rest ih =>
    obtain ⟨hfirst, hrest⟩ := List.forall_mem_cons.mp h
    rw [runAlternatives_cons, runAlternatives_cons]
    refine .bind (hfirst c d hcd) fun next next' hnext => ?_
    rw [hnext.failed_eq]
    split
    · exact ih hrest
    · exact .value hnext

variable {body stop : Cursor → Outcome Cursor}

/-- The same results, and cursors that differ in place only. -/
def SameResults (k : Nat) (x y : List Value × Cursor) : Prop :=
  x.1 = y.1 ∧ Shifted k x.2 y.2

theorem repeatAll_shifted (hbody : KeepsShifted k body) (steps : Nat) {m n : Cursor}
    (hmn : Shifted k m n) (rs : List Value) :
    Alike (SameResults k) (repeatAll body steps m rs) (repeatAll body steps n rs) := by
  induction steps generalizing m n rs with
  | zero => exact .unfinished
  | succ steps ih =>
    rw [repeatAll_succ, repeatAll_succ]
    refine .bind (hbody m n hmn) fun next next' hnext => ?_
    rw [hnext.failed_eq, hnext.result_eq]
    split
    · exact .value ⟨rfl, hmn⟩
    · exact ih hnext _

theorem repeatExactly_shifted (hbody : KeepsShifted k body) (count left : Nat) {c d m n : Cursor}
    (hcd : Shifted k c d) (hmn : Shifted k m n) (rs : List Value) :
    Alike (Shifted k) (repeatExactly body count c left m rs)
      (repeatExactly body count d left n rs) := by
  induction left generalizing m n rs with
  | zero => exact .value (hcd.collect hmn rs)
  | succ left ih =>
    rw [repeatExactly_succ, repeatExactly_succ]
    refine .bind (hbody m n hmn) fun next next' hnext => ?_
    rw [hnext.failed_eq, hnext.result_eq]
    split
    · exact .value (hcd.stays (.repetitionCount count ·) fun _ => rfl)
    · exact ih hnext _

theorem repeatUpTo_shifted (hbody : KeepsShifted k body) (left : Nat) {m n : Cursor}
    (hmn : Shifted k m n) (rs : List Value) :
    Alike (Shifted k) (repeatUpTo body left m rs) (repeatUpTo body left n rs) := by
  induction left generalizing m n rs with
  | zero => exact .value (hmn.collect hmn rs)
  | succ left ih =>
    rw [repeatUpTo_succ, repeatUpTo_succ]
    refine .bind (hbody m n hmn) fun next next' hnext => ?_
    rw [hnext.failed_eq, hnext.result_eq]
    split
    · split
      · exact .value hnext
      · exact .value (hmn.collect hmn rs)
    · exact ih hnext _

theorem repeatUntil_shifted (hstop : KeepsShifted k stop) (hbody : KeepsShifted k body)
    (steps : Nat) {m n : Cursor} (hmn : Shifted k m n) (rs : List Value) :
    Alike (Shifted k) (repeatUntil stop body steps m rs) (repeatUntil stop body steps n rs) := by
  induction steps generalizing m n rs with
  | zero => exact .unfinished
  | succ steps ih =>
    rw [repeatUntil_succ, repeatUntil_succ]
    refine .bind (hstop m n hmn) fun stopped stopped' hstopped => ?_
    rw [hstopped.failed_eq]
    split
    · refine .bind (hbody m n hmn) fun next next' hnext => ?_
      rw [hnext.failed_eq, hnext.result_eq]
      split
      · exact .value hstopped
      · exact ih hnext _
    · exact .value (hmn.collect hmn rs)

end Loops

end Cursor

/-- What is complained of two failures is the same message, or the same record up to the offset,
which is that of the failure itself. -/
inductive Complaint.SameWording (e d : Diagnostic) : Complaint → Complaint → Prop where
  | message (text : String) : SameWording e d (.message text) (.message text)
  | record (r : Diagnostic) :
      SameWording e d (.record { r with offset := e.offset })
        (.record { r with offset := d.offset })

namespace Parser

open Cursor

/-- The function reads of a failed cursor only its result and the message, the expected items and
the code of its failure. Its answer is a message, or a record with the offset that the failure
has. -/
def WordsByFailure (explain : Cursor → Outcome Complaint) : Prop :=
  ∀ f g e d, f.error = some e → g.error = some d → f.result = g.result → e.message = d.message →
    e.expected = d.expected → e.code = d.code →
    Alike (Complaint.SameWording e d) (explain f) (explain g)

/-- A parser of the library that does not ask where it stands: no assertion of a start, no span and
no start offset in a result, no failure with an offset of its own. -/
def IgnoresPosition : Parser → Prop
  | startOfInput => False
  | startOfLine => False
  | tagged _ _ => False
  | mapIndexed _ _ => False
  | custom _ _ => False
  | fail (.record _) => False
  | mapError _ explain => WordsByFailure explain
  | _ => True

variable {k : Nat}

/-- A level that goes on only behind a success. -/
theorem unless_failed_shifted {x y : Outcome Cursor} {go go' : Cursor → Outcome Cursor}
    (h : Alike (Shifted k) x y)
    (hgo : ∀ m n, Shifted k m n → Alike (Shifted k) (go m) (go' n)) :
    Alike (Shifted k) (x >>= fun m => if m.failed then pure m else go m)
      (y >>= fun n => if n.failed then pure n else go' n) := by
  refine .bind h fun m n hmn => ?_
  rw [hmn.failed_eq]
  split
  · exact .value hmn
  · exact hgo m n hmn

/-- A failure that is worded anew, at the failed cursor or where the failure was found. -/
theorem explained_shifted {explain : Cursor → Outcome Complaint} (hexplain : WordsByFailure explain)
    {m n : Cursor} (hmn : Shifted k m n) (hfailed : n.failed = true) :
    Alike (Shifted k) (explain m >>= fun complaint => pure (m.complain complaint))
      (explain n >>= fun complaint => pure (n.complain complaint)) := by
  obtain ⟨d, hd⟩ := failed_iff.mp hfailed
  have he : m.error = some (d.shifted k) := by rw [hmn.error_eq, hd, Option.map_some]
  refine .bind (hexplain m n _ d he hd hmn.result_eq rfl rfl rfl) fun x y hxy => ?_
  cases hxy with
  | message text => exact .value (hmn.stays (fun o => ⟨text, o, [], none⟩) fun _ => rfl)
  | record r => exact .value (hmn.withError rfl)

variable {definitions : Definitions} {attempt : Parser → Cursor → Outcome Cursor} {p : Parser}

/-- One level comes to the same if all that it calls does. -/
theorem runWith_shifted {steps : Nat} (hnode : p.IgnoresPosition)
    (hattempt : ∀ q, Calls definitions p q → KeepsShifted k (attempt q)) :
    KeepsShifted k (runWith definitions attempt steps p) := by
  intro c d hcd
  cases p with
  | rune accepts complaint what => exact hcd.matchRune accepts complaint what
  | runes accepts complaint what => exact hcd.matchRunes accepts complaint what
  | runeCount count => exact .value (hcd.matchRuneCount count)
  | literal text => exact .value (hcd.matchLiteral text)
  | foldedLiteral text => exact .value (hcd.matchFoldedLiteral text)
  | succeed value => exact .value (hcd.withResult value hcd.nonneg hcd.offset_eq)
  | fail complaint =>
    cases complaint with
    | message text => exact .value (hcd.stays (fun o => ⟨text, o, [], none⟩) fun _ => rfl)
    | record => exact hnode.elim
  | endOfInput => exact .value hcd.matchEndOfInput
  | sequence parts dropNothing =>
    exact runParts_shifted (fun q hq => hattempt q (.sequence hq)) dropNothing hcd hcd []
  | choice alternatives => exact runAlternatives_shifted (fun q hq => hattempt q (.choice hq)) hcd
  | chain first next =>
    refine unless_failed_shifted (hattempt _ .chainFirst c d hcd) fun m n hmn => ?_
    rw [hmn.result_eq]
    exact hattempt _ (.chainNext n.result) m n hmn
  | many body =>
    refine .bind (repeatAll_shifted (hattempt _ .many) steps hcd []) fun (rs, m) (_, n) hxy => ?_
    obtain ⟨rfl, hmn⟩ := hxy
    exact .value (hmn.collect hmn rs)
  | many1 body =>
    refine .bind (repeatAll_shifted (hattempt _ .many1) steps hcd []) fun (rs, m) (_, n) hxy => ?_
    obtain ⟨rfl, hmn⟩ := hxy
    simp only
    split
    · exact .value (hcd.stays .noRepetition fun _ => rfl)
    · exact .value (hmn.collect hmn rs)
  | exactly count body => exact repeatExactly_shifted (hattempt _ .exactly) count count hcd hcd []
  | upTo count body =>
    simp only [runWith]
    split
    · exact .value hcd
    · exact repeatUpTo_shifted (hattempt _ .upTo) count hcd []
  | untilStop stop body =>
    exact repeatUntil_shifted (hattempt _ .untilStop) (hattempt _ .untilBody) steps hcd []
  | optional body =>
    refine .bind (hattempt _ .optional c d hcd) fun m n hmn => ?_
    rw [hmn.failed_eq]
    split
    · exact .value hcd
    · exact .value hmn
  | peek body =>
    refine .bind (hattempt _ .peek c d hcd) fun m n hmn => ?_
    rw [hmn.failed_eq]
    split
    · exact .value (hcd.stays .wouldNotMatch fun _ => rfl)
    · exact .value hcd
  | map body transform =>
    refine unless_failed_shifted (hattempt _ .map c d hcd) fun m n hmn => ?_
    rw [hmn.result_eq]
    refine .bind (.refl _) fun v _ hsame => ?_
    exact hsame ▸ .value (hmn.withResult v hmn.nonneg hmn.offset_eq)
  | mapError body explain =>
    refine .bind (hattempt _ .mapError c d hcd) fun m n hmn => ?_
    rw [hmn.failed_eq]
    split
    · exact explained_shifted hnode hmn ‹_›
    · exact .value hmn
  | named body name => exact hattempt _ .named c d hcd
  | definition name => exact hattempt _ .definition c d hcd
  | invalid fault => exact .raised fault
  | startOfInput | startOfLine | tagged | mapIndexed | custom => exact hnode.elim

theorem runFor_shifted (levels : Nat) (hp : p.Throughout definitions IgnoresPosition) :
    KeepsShifted k (p.runFor definitions levels) := by
  induction levels generalizing p with
  | zero => exact fun _ _ _ => .unfinished
  | succ levels ih =>
    intro c d hcd
    simp only [runFor]
    rw [hcd.failed_eq]
    split
    · exact .value hcd
    · exact runWith_shifted hp.here (fun q hq => ih (hp.call hq)) c d hcd

/-- Where the bytes of a parse stand makes no difference. From offset `k` of all bytes, and from
the start of the bytes from `k` on, the parse raises the same fault, or it comes to no end, or it
succeeds or fails alike with the same result, and the offsets of cursor and failure differ by
`k`. -/
theorem position_does_not_matter (hp : p.Throughout definitions IgnoresPosition)
    (bytes : Array UInt8) (hk : k ≤ bytes.size) (v : Value) (levels : Nat) :
    (∀ fault, p.runFor definitions levels ⟨.ofBytes bytes, k, v, none⟩ = .raised fault ↔
      p.runFor definitions levels ⟨.ofBytes (bytes.extract k), 0, v, none⟩ = .raised fault) ∧
    (p.runFor definitions levels ⟨.ofBytes bytes, k, v, none⟩ = .unfinished ↔
      p.runFor definitions levels ⟨.ofBytes (bytes.extract k), 0, v, none⟩ = .unfinished) ∧
    ∀ r s, p.runFor definitions levels ⟨.ofBytes bytes, k, v, none⟩ = .value r →
      p.runFor definitions levels ⟨.ofBytes (bytes.extract k), 0, v, none⟩ = .value s →
      r.failed = s.failed ∧ r.result = s.result ∧ r.offset = s.offset + k ∧
        r.error = s.error.map fun e => { e with offset := e.offset + k } := by
  have hstart : Shifted k ⟨.ofBytes bytes, k, v, none⟩
      ⟨.ofBytes (bytes.extract k), 0, v, none⟩ := by
    refine ⟨⟨hk, ?_⟩, (Int.zero_add _).symm, Int.le_refl 0, rfl, rfl⟩
    show (bytes.extract k).toList = bytes.toList.drop k
    rw [Array.toList_extract, List.extract_eq_take_drop, List.take_of_length_le (by simp)]
  have halike := runFor_shifted levels hp _ _ hstart
  refine ⟨halike.raised_iff, halike.unfinished_iff, fun r s hr hs => ?_⟩
  have hshifted := halike.related hr hs
  exact ⟨hshifted.failed_eq, hshifted.result_eq, hshifted.offset_eq, hshifted.error_eq⟩

/-- A rune and the same one again, with a failure that says so. -/
def twice : Parser :=
  .mapError
    (.chain anyRune fun v =>
      match v with
      | .text s => .literal s
      | _ => .fail (.message "not a text"))
    fun f =>
      match f.error with
      | some e => .value (.record { e with message := "not twice: " ++ e.message })
      | none => .value (.message "not twice")

theorem twice_ignores_position : twice.Throughout [] IgnoresPosition := by
  refine .intro (fun f g e d hf hg _ hmessage hexpected hcode => ?_) fun q hq => ?_
  · obtain ⟨message, offset, expected, code⟩ := e
    obtain ⟨message', offset', expected', code'⟩ := d
    obtain rfl : message = message' := hmessage
    obtain rfl : expected = expected' := hexpected
    obtain rfl : code = code' := hcode
    simp only [hf, hg]
    exact .value (.record ⟨"not twice: " ++ message, offset, expected, code⟩)
  · cases hq
    refine .intro trivial fun q hq => ?_
    cases hq with
    | chainFirst => exact .intro trivial nofun
    | chainNext v => cases v <;> exact .intro trivial nofun

/-- Two different letters, behind two other bytes and on their own. -/
theorem position_does_not_matter_twice :
    ∃ r s, runFor [] 4 twice ⟨.ofBytes #[0x2D, 0x2D, 0x61, 0x62], 2, .int 7, none⟩ = .value r ∧
      runFor [] 4 twice ⟨.ofBytes #[0x61, 0x62], 0, .int 7, none⟩ = .value s ∧ s.failed = true ∧
      r.offset = s.offset + 2 ∧
      r.error = s.error.map fun e => { e with offset := e.offset + 2 } := by
  obtain ⟨r, hr⟩ :
      ∃ r, runFor [] 4 twice ⟨.ofBytes #[0x2D, 0x2D, 0x61, 0x62], 2, .int 7, none⟩ = .value r :=
    ⟨_, rfl⟩
  obtain ⟨s, hs, hfailed⟩ :
      ∃ s, runFor [] 4 twice ⟨.ofBytes #[0x61, 0x62], 0, .int 7, none⟩ = .value s ∧
        s.failed = true :=
    ⟨_, rfl, rfl⟩
  obtain ⟨-, -, hvalues⟩ := position_does_not_matter twice_ignores_position
    #[0x2D, 0x2D, 0x61, 0x62] (k := 2) (by decide) (.int 7) 4
  obtain ⟨-, -, hoffset, herror⟩ := hvalues r s hr hs
  exact ⟨r, s, hr, hs, hfailed, hoffset, herror⟩

end Parser

end Scannerless
