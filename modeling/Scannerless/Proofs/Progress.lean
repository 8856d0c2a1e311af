import Scannerless.Proofs.RunSteps
import Scannerless.Proofs.RuneWidth

/-!
# Forward progress and bounds

A parse that succeeds stays on its source, never moves back and never ends behind the last byte. The
argument rests on the leaves: a rune that is read lies inside the source, and a window that comes
back in full does so too. An offset that lies behind the source from the start may stay where it is,
which is why the bound is the larger of the two.
-/
namespace Scannerless

namespace Source

variable {source : Source}

theorem add_le_of_length_read {offset : Int} {count : Nat}
    (h : (source.read offset count).length = count) : offset + count ≤ max offset source.size := by
  rw [source.read_eq, length_window] at h
  unfold size
  split at h <;> omega

theorem runesWhileFrom_bounds {accepts : Char → Outcome Bool} {steps : Nat} {offset stop : Int}
    {runes found : List Char}
    (h : source.runesWhileFrom accepts steps offset runes = .value (found, stop)) :
    offset ≤ stop ∧ stop ≤ max offset source.size := by
  induction steps generalizing offset runes with
  | zero =>
    obtain ⟨_, rfl⟩ := Prod.mk.inj (Outcome.value.inj h)
    omega
  | succ steps ih =>
    rcases runesWhileFrom_succ_eq_value_iff.mp h with ⟨c, width, hread, _, h⟩ | ⟨_, h⟩
    · have hrune := readRune_bounds hread
      have hrest := ih h
      omega
    · obtain ⟨_, rfl⟩ := Prod.mk.inj h
      omega

theorem readRunesFrom_bounds {count : Nat} {offset stop : Int} {runes found : List Char}
    (h : source.readRunesFrom count offset runes = some (found, stop)) :
    offset ≤ stop ∧ stop ≤ max offset source.size := by
  induction count generalizing offset runes with
  | zero =>
    obtain ⟨_, rfl⟩ := Prod.mk.inj (Option.some.inj h)
    omega
  | succ count ih =>
    rw [readRunesFrom] at h
    cases hread : source.readRune offset with
    | none => simp [hread] at h
    | some rune =>
      obtain ⟨c, width⟩ := rune
      have hrune := readRune_bounds hread
      rw [hread] at h
      have hrest := ih h
      omega

end Source

namespace Cursor

/-- `r` stands on the source of `c`, not before `c`, and not behind the source unless `c` does. -/
structure Advances (c r : Cursor) : Prop where
  source_eq : r.source = c.source
  le_offset : c.offset ≤ r.offset
  offset_le : r.offset ≤ max c.offset c.source.size

namespace Advances

theorem refl (c : Cursor) : c.Advances c :=
  ⟨rfl, Int.le_refl _, Int.le_max_left _ _⟩

theorem trans {a b c : Cursor} (hab : a.Advances b) (hbc : b.Advances c) : a.Advances c := by
  have hsource : b.source.size = a.source.size := by rw [hab.source_eq]
  have h₁ := hab.le_offset
  have h₂ := hab.offset_le
  have h₃ := hbc.le_offset
  have h₄ := hbc.offset_le
  refine ⟨hbc.source_eq.trans hab.source_eq, by omega, ?_⟩
  rw [hsource] at h₄
  omega

/-- Only source and offset count. -/
theorem congr {c r s : Cursor} (h : c.Advances r) (hsource : s.source = r.source)
    (hoffset : s.offset = r.offset) : c.Advances s :=
  ⟨hsource.trans h.source_eq, by rw [hoffset]; exact h.le_offset,
    by rw [hoffset]; exact h.offset_le⟩

end Advances

/-- What every matcher does: it advances, or it fails where it stands. -/
def AdvancesOrStays (c r : Cursor) : Prop :=
  (r.failed = false ∧ c.Advances r) ∨ ∃ e, r = c.withError e ∧ e.offset = c.offset

variable {c : Cursor}

theorem stays_of_error {e : Diagnostic} (he : e.offset = c.offset) :
    c.AdvancesOrStays (c.withError e) :=
  .inr ⟨e, rfl, he⟩

theorem stays_of_refuse (complaint : Option Complaint) {usual : Diagnostic}
    (he : usual.offset = c.offset) : c.AdvancesOrStays (c.refuse complaint usual) := by
  cases complaint with
  | none => exact stays_of_error he
  | some complaint => cases complaint <;> exact stays_of_error rfl

theorem advances_of_offset (hc : c.failed = false) {v : Value} {stop : Int} (hle : c.offset ≤ stop)
    (hstop : stop ≤ max c.offset c.source.size) : c.AdvancesOrStays (c.withResult v stop) :=
  .inl ⟨hc, rfl, hle, hstop⟩

theorem advances_self (hc : c.failed = false) : c.AdvancesOrStays c :=
  .inl ⟨hc, .refl c⟩

theorem matchRune_advances (hc : c.failed = false) {accepts : Char → Outcome Bool}
    {complaint : Option Complaint} {what : String} {r : Cursor}
    (h : c.matchRune accepts complaint what = .value r) : c.AdvancesOrStays r := by
  rcases matchRune_eq_value_iff.mp h with ⟨rune, width, hread, _, rfl⟩ | ⟨_, rfl⟩
  · have hrune := Source.readRune_bounds hread
    exact advances_of_offset hc (by omega) (by omega)
  · exact stays_of_refuse complaint rfl

theorem matchRunes_advances (hc : c.failed = false) {accepts : Char → Outcome Bool}
    {complaint : Option Complaint} {what : String} {r : Cursor}
    (h : c.matchRunes accepts complaint what = .value r) : c.AdvancesOrStays r := by
  obtain ⟨runes, stop, hwhile, rfl⟩ := matchRunes_eq_value_iff.mp h
  split
  · exact stays_of_refuse complaint rfl
  · obtain ⟨hle, hstop⟩ := Source.runesWhileFrom_bounds hwhile
    exact advances_of_offset hc hle hstop

theorem matchRuneCount_advances (hc : c.failed = false) (count : Nat) :
    c.AdvancesOrStays (c.matchRuneCount count) := by
  rw [matchRuneCount_eq]
  split
  · exact stays_of_error rfl
  · rename_i runes stop hread
    obtain ⟨hle, hstop⟩ := Source.readRunesFrom_bounds hread
    exact advances_of_offset hc hle hstop

theorem matchLiteral_advances (hc : c.failed = false) (text : String) :
    c.AdvancesOrStays (c.matchLiteral text) := by
  unfold matchLiteral
  simp only
  split
  · rename_i hbytes
    have hstop := Source.add_le_of_length_read (congrArg List.length hbytes)
    exact advances_of_offset hc (by omega) hstop
  · exact stays_of_error rfl

theorem matchFoldedLiteral_advances (hc : c.failed = false) (text : String) :
    c.AdvancesOrStays (c.matchFoldedLiteral text) := by
  unfold matchFoldedLiteral
  simp only
  split
  · rename_i hfolds
    have hlength := (Bool.and_eq_true_iff.mp hfolds).1
    have hstop := Source.add_le_of_length_read (beq_iff_eq.mp hlength)
    exact advances_of_offset hc (by omega) hstop
  · exact stays_of_error rfl

theorem matchStartOfInput_advances (hc : c.failed = false) :
    c.AdvancesOrStays c.matchStartOfInput := by
  unfold matchStartOfInput
  split
  · exact advances_self hc
  · exact stays_of_error rfl

theorem matchEndOfInput_advances (hc : c.failed = false) : c.AdvancesOrStays c.matchEndOfInput := by
  unfold matchEndOfInput
  split
  · exact advances_self hc
  · exact stays_of_error rfl

theorem matchStartOfLine_advances (hc : c.failed = false) :
    c.AdvancesOrStays c.matchStartOfLine := by
  unfold matchStartOfLine
  split
  · exact advances_self hc
  · split
    · exact advances_self hc
    · exact stays_of_error rfl

end Cursor

namespace Parser

/-- A leaf advances or fails where it stands; only a failure that is given as a record stands
wherever the record says. -/
theorem Acts.advances {p : Parser} {c r : Cursor} (h : Acts p c r) (hc : c.failed = false) :
    c.AdvancesOrStays r ∨ ∃ d, p = .fail (.record d) ∧ r = c.withError d := by
  cases h with
  | rune h => exact .inl (c.matchRune_advances hc h)
  | runes h => exact .inl (c.matchRunes_advances hc h)
  | runeCount => exact .inl (c.matchRuneCount_advances hc _)
  | literal => exact .inl (c.matchLiteral_advances hc _)
  | foldedLiteral => exact .inl (c.matchFoldedLiteral_advances hc _)
  | succeed => exact .inl (Cursor.advances_of_offset hc (Int.le_refl _) (Int.le_max_left _ _))
  | @fail complaint _ =>
    cases complaint with
    | message text => exact .inl (Cursor.stays_of_error rfl)
    | record d => exact .inr ⟨d, rfl, rfl⟩
  | startOfInput => exact .inl (c.matchStartOfInput_advances hc)
  | endOfInput => exact .inl (c.matchEndOfInput_advances hc)
  | startOfLine => exact .inl (c.matchStartOfLine_advances hc)

/-- A parser of the library, and not the author's own function. -/
def IsLibrary : Parser → Prop
  | custom _ _ => False
  | _ => True

variable {definitions : Definitions} {A : Parser → Cursor → Cursor → Prop} {p : Parser}
  {c r : Cursor}

theorem Passes.advances {parts : List Parser} {last : Cursor} {rs : List Value}
    (h : Passes A parts c rs last) (hc : c.failed = false)
    (hA : ∀ part ∈ parts, ∀ c r, c.failed = false → A part c r → r.failed = false → c.Advances r) :
    c.Advances last :=
  h.respects Cursor.Advances.refl (fun _ _ _ => Cursor.Advances.trans) hc hA

theorem Passes.advances_replicate {body : Parser} {k : Nat} {last : Cursor} {rs : List Value}
    (h : Passes A (List.replicate k body) c rs last) (hc : c.failed = false)
    (hA : ∀ c r, c.failed = false → A body c r → r.failed = false → c.Advances r) :
    c.Advances last :=
  h.respects_replicate Cursor.Advances.refl (fun _ _ _ => Cursor.Advances.trans) hc hA

/-- One level advances if what it calls does. -/
theorem Step.advances (hnode : p.IsLibrary) (hc : c.failed = false)
    (hA : ∀ q, Calls definitions p q → ∀ c r, c.failed = false → A q c r → r.failed = false →
      c.Advances r)
    (h : Step definitions A p c r) (hr : r.failed = false) : c.Advances r := by
  cases h with
  | leaf hact =>
    rcases hact.advances hc with (⟨_, hadvances⟩ | ⟨e, he, _⟩) | ⟨d, _, hd⟩
    · exact hadvances
    · rw [he] at hr; cases hr
    · rw [hd] at hr; cases hr
  | sequence hpasses =>
    have hlast := hpasses.advances hc fun part hmem => hA part (.sequence hmem)
    exact ⟨rfl, hlast.le_offset, hlast.offset_le⟩
  | choice _ halt _ => exact hA _ (.choice (by simp)) c r hc halt hr
  | chain hfirst hm hnext =>
    have hmiddle := hA _ .chainFirst _ _ hc hfirst hm
    exact hmiddle.trans (hA _ (.chainNext _) _ _ hm hnext hr)
  | many hpasses =>
    exact (hpasses.advances_replicate hc (hA _ .many)).congr rfl rfl
  | many1 hpasses =>
    exact (hpasses.advances_replicate hc (hA _ .many1)).congr rfl rfl
  | exactly hpasses =>
    have hlast := hpasses.advances_replicate hc (hA _ .exactly)
    exact ⟨rfl, hlast.le_offset, hlast.offset_le⟩
  | upToNone => exact .refl c
  | upToAll hpasses =>
    exact (hpasses.advances_replicate hc (hA _ .upTo)).congr rfl rfl
  | upToSome _ hpasses =>
    exact (hpasses.advances_replicate hc (hA _ .upTo)).congr rfl rfl
  | untilStop hpasses =>
    refine (hpasses.advances_replicate hc fun c r hc hround => ?_).congr rfl rfl
    exact hA _ .untilBody c r hc hround.2
  | optional hbody _ => exact hA _ .optional c r hc hbody hr
  | optionalSkips => exact .refl c
  | peek => exact .refl c
  | map hbody hm => exact (hA _ .map _ _ hc hbody hm).congr rfl rfl
  | mapIndexed hbody hm => exact (hA _ .mapIndexed _ _ hc hbody hm).congr rfl rfl
  | mapErrorPasses hbody _ => exact hA _ .mapError c r hc hbody hr
  | tagged hbody hm => exact (hA _ .tagged _ _ hc hbody hm).congr rfl rfl
  | named hbody => exact hA _ .named c r hc hbody hr
  | definition hbody => exact hA _ .definition c r hc hbody hr
  | custom => exact hnode.elim
  -- What is left are the ways in which a level fails.
  | sequenceFails | choiceFails | many1Fails | exactlyFails | peekFails | mapError => cases hr
  | chainFails _ hf | upToFails _ hf | mapFails _ hf | mapIndexedFails _ hf | taggedFails _ hf =>
    rw [hr] at hf; cases hf
  | untilStopFails _ _ hs => rw [hr] at hs; cases hs

theorem run_advances {levels : Nat} (hp : p.Throughout definitions IsLibrary)
    (hc : c.failed = false) (h : p.runFor definitions levels c = .value r) (hr : r.failed = false) :
    c.Advances r :=
  run_induction (R := fun _ c r => r.failed = false → c.Advances r)
    (fun _ _ _ _ hnode hc hA hstep hr =>
      hstep.advances hnode hc (fun q hq c r hc ha hr => hA q hq c r hc ha hr) hr) hp hc h hr

/-- No successful parse leaves its source, moves back, or moves behind the end of the source. -/
theorem run_stays_in_bounds {levels : Nat} (hp : p.Throughout definitions IsLibrary)
    (hc : c.failed = false) (h : p.runFor definitions levels c = .value r) (hr : r.failed = false) :
    r.source = c.source ∧ c.offset ≤ r.offset ∧ r.offset ≤ max c.offset c.source.size := by
  have hadvances := run_advances hp hc h hr
  exact ⟨hadvances.source_eq, hadvances.le_offset, hadvances.offset_le⟩

/-- A cross in parentheses, parsed in a source that goes on behind it. -/
theorem run_stays_in_bounds_nested :
    ∃ r, runFor nested 9 (.definition "nested") (.ofSource (.ofBytes #[0x28, 0x78, 0x29, 0x29])) =
      .value r ∧ r.failed = false ∧ 0 ≤ r.offset ∧ r.offset ≤ 4 := by
  have hp : (definition "nested").Throughout nested IsLibrary :=
    nested_throughout trivial (fun _ => trivial) (fun _ => trivial) fun _ => trivial
  obtain ⟨r, hrun, hr⟩ : ∃ r, runFor nested 9 (.definition "nested")
      (.ofSource (.ofBytes #[0x28, 0x78, 0x29, 0x29])) = .value r ∧ r.failed = false :=
    ⟨_, rfl, rfl⟩
  obtain ⟨_, hbounds⟩ := run_stays_in_bounds hp rfl hrun hr
  exact ⟨r, hrun, hr, hbounds⟩

end Parser

end Scannerless
