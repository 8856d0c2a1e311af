import Scannerless.Proofs.Termination.Level

/-!
# Grammars without left recursion end

A grammar is free of left recursion if its definitions have ranks such that a definition which has
not moved yet comes only to definitions of smaller rank. Then no run visits for ever: each visit
leaves fewer bytes, or it goes down in rank, or it goes from a parser to one of its parts. Main
statement: every run of such a grammar comes to an end, if what it repeats without a count reads
something with every success.
-/
namespace Scannerless.Parser

open Outcome Relation

variable {definitions : Definitions} {source : Source}

section Parts

variable {motive : Parser → Prop}

mutual

/-- Structural induction: what calls other parsers, and is not a mere name, holds them as parts. -/
theorem part_induction (definitions : Definitions)
    (h : ∀ p, (∀ q, (∀ name, p ≠ .definition name) → Calls definitions p q → motive q) → motive p) :
    ∀ p, motive p
  | .sequence parts _ => h _ fun q _ hcall => by
      cases hcall with
      | sequence hmem => exact parts_induction definitions h parts q hmem
  | .choice alternatives => h _ fun q _ hcall => by
      cases hcall with
      | choice hmem => exact parts_induction definitions h alternatives q hmem
  | .chain first next => h _ fun q _ hcall => by
      cases hcall with
      | chainFirst => exact part_induction definitions h first
      | chainNext v => exact part_induction definitions h (next v)
  | .untilStop stop body => h _ fun q _ hcall => by
      cases hcall with
      | untilStop => exact part_induction definitions h stop
      | untilBody => exact part_induction definitions h body
  | .many body | .many1 body | .exactly _ body | .upTo _ body | .optional body | .peek body
  | .map body _ | .mapIndexed body _ | .mapError body _ | .tagged body _ | .named body _ =>
      h _ fun q _ hcall => by cases hcall; exact part_induction definitions h body
  | .definition name => h _ fun _ hne _ => absurd rfl (hne name)
  | .rune .. | .runes .. | .runeCount _ | .literal _ | .foldedLiteral _ | .succeed _ | .fail _
  | .startOfInput | .endOfInput | .startOfLine | .custom .. | .invalid _ =>
      h _ fun _ _ hcall => nomatch hcall

theorem parts_induction (definitions : Definitions)
    (h : ∀ p, (∀ q, (∀ name, p ≠ .definition name) → Calls definitions p q → motive q) → motive p) :
    ∀ parts : List Parser, ∀ q ∈ parts, motive q
  | [] => nofun
  | part :: rest =>
      List.forall_mem_cons.mpr
        ⟨part_induction definitions h part, parts_induction definitions h rest⟩

end

end Parts

/-- No run goes on visiting for ever from here. -/
def Grounded (definitions : Definitions) (x : Parser × Cursor) : Prop :=
  Acc (fun y x => Visits definitions x y) x

theorem Grounded.intro {x : Parser × Cursor}
    (h : ∀ y, Visits definitions x y → Grounded definitions y) : Grounded definitions x :=
  Acc.intro x h

/-- The ranks rule out left recursion: a definition refers, as long as it stays where it was
entered, only to definitions of smaller rank. -/
def Ranked (definitions : Definitions) (source : Source) (rank : String → Nat) : Prop :=
  ∀ name name' c d, c.source = source → c.failed = false →
    TransGen (Visits definitions) (.definition name, c) (.definition name', d) →
    d.offset = c.offset → rank name' < rank name

section Measure

variable {left : Nat}
  (hfurther : ∀ y, Entered definitions source y → bytesLeft y.2 < left → Grounded definitions y)
include hfurther

/-- A parser that does not move on goes down to its parts, until it comes to a definition. -/
theorem grounded_of_references (p : Parser) (c : Cursor) (hx : Entered definitions source (p, c))
    (hleft : bytesLeft c = left)
    (hnames : ∀ name d, ReflTransGen (Visits definitions) (p, c) (.definition name, d) →
      d.offset = c.offset → Grounded definitions (.definition name, d)) :
    Grounded definitions (p, c) := by
  induction p using part_induction definitions generalizing c with
  | h p ih =>
    by_cases hname : ∃ name, p = .definition name
    · obtain ⟨name, rfl⟩ := hname
      exact hnames name c .refl rfl
    · refine .intro fun ⟨q, d⟩ hvisit => ?_
      have hentered := hvisit.entered hx
      obtain ⟨hadvances, -⟩ := hvisit.advances hx.library hx.ok
      rcases Int.lt_or_eq_of_le hadvances.le_offset with hlt | heq
      · exact hfurther _ hentered (hleft ▸ bytesLeft_lt hadvances hlt)
      · have hsame : bytesLeft d = left := (bytesLeft_eq hadvances heq.symm).trans hleft
        refine ih q (not_exists.mp hname) hvisit.calls d hentered hsame fun name e hpath he => ?_
        exact hnames name e (.head hvisit hpath) (he.trans heq.symm)

/-- A definition that does not move on goes down in rank. -/
theorem grounded_definition {rank : String → Nat} (hranked : Ranked definitions source rank)
    (name : String) (c : Cursor) (hx : Entered definitions source (.definition name, c))
    (hleft : bytesLeft c = left) : Grounded definitions (.definition name, c) := by
  induction hrank : rank name using Nat.strongRecOn generalizing name c with
  | ind r ih =>
    have hbody : Visits definitions (.definition name, c) (definitions.find name, c) := .definition
    refine .intro fun y hvisit => ?_
    cases hvisit
    refine grounded_of_references hfurther _ c (hbody.entered hx) hleft fun name' d hpath hd => ?_
    obtain ⟨hentered, hadvances⟩ := entered_of_visits (.head hbody hpath) hx
    have hless := hranked name name' c d hx.source_eq hx.ok (.head' hbody hpath) hd
    exact ih (rank name') (hrank ▸ hless) name' d hentered ((bytesLeft_eq hadvances hd).trans hleft)
      rfl

end Measure

/-- The measure is lexicographic: the bytes left, then the rank, then the parser itself. -/
theorem grounded_of_ranked {rank : String → Nat} (hranked : Ranked definitions source rank)
    {x : Parser × Cursor} (hx : Entered definitions source x) : Grounded definitions x := by
  induction hleft : bytesLeft x.2 using Nat.strongRecOn generalizing x with
  | ind left ih =>
    have hfurther : ∀ y, Entered definitions source y → bytesLeft y.2 < left →
        Grounded definitions y := fun y hy hless => ih _ hless hy rfl
    refine grounded_of_references hfurther x.1 x.2 hx hleft fun name d hpath hd => ?_
    obtain ⟨hentered, hadvances⟩ := entered_of_visits hpath hx
    exact grounded_definition hfurther hranked name d hentered
      ((bytesLeft_eq hadvances hd).trans hleft)

/-- A parser of the library whose functions end, and which repeats without a count only what reads
something with every success. -/
structure WellFormed (definitions : Definitions) (source : Source) (p : Parser) : Prop where
  library : p.IsLibrary
  callbacks : p.CallbacksEnd
  repeats : p.RepeatsConsuming definitions source

theorem ends_of_grounded {x : Parser × Cursor} (hground : Grounded definitions x)
    (hwell : x.1.Throughout definitions (WellFormed definitions source))
    (hsource : x.2.source = source) (hok : x.2.failed = false) : EndsAt definitions x := by
  induction hground with
  | intro x _ ih =>
    have hx : Entered definitions source x := ⟨hwell.mono fun _ h => h.library, hsource, hok⟩
    refine Settles.of_succ ?_
    simp only [runFor, hok, Bool.false_eq_true, if_false]
    refine runWith_ends_of_visits hx hwell.here.callbacks hwell.here.repeats fun y hvisit => ?_
    have hy := hvisit.entered hx
    exact ih y hvisit (hwell.call hvisit.calls) hy.source_eq hy.ok

/-- Every run of a well-formed grammar without left recursion comes to an end, wherever it starts:
from some number of levels on it gives one and the same cursor or raises one and the same fault. -/
theorem well_formed_run_ends {p : Parser} {c : Cursor} {rank : String → Nat}
    (hp : p.Throughout definitions (WellFormed definitions c.source))
    (hranked : Ranked definitions c.source rank) :
    ∃ levels, (∃ r, ∀ more, levels ≤ more → p.runFor definitions more c = .value r) ∨
      ∃ fault, ∀ more, levels ≤ more → p.runFor definitions more c = .raised fault := by
  cases hc : c.failed with
  | true =>
    refine ⟨1, .inl ⟨c, fun more hmore => ?_⟩⟩
    obtain ⟨less, rfl⟩ : ∃ less, more = less + 1 := ⟨more - 1, by omega⟩
    simp only [runFor, hc, if_true]
  | false =>
    have hx : Entered definitions c.source (p, c) := ⟨hp.mono fun _ h => h.library, rfl, hc⟩
    obtain ⟨levels, x, hends, hlevels⟩ :=
      ends_of_grounded (grounded_of_ranked hranked hx) hp rfl hc
    cases x with
    | value r => exact ⟨levels, .inl ⟨r, hlevels⟩⟩
    | raised fault => exact ⟨levels, .inr ⟨fault, hlevels⟩⟩
    | unfinished => exact hends.elim

/-- A value is a cross or a list of values: repetition inside recursion, and a definition that
refers to another one before anything is read. -/
def lists : Definitions :=
  [("value", .choice [.definition "list", .literal "x"]),
    ("list", .sequence [.literal "(", .many (.definition "value"), .literal ")"] false)]

/-- The parsers that the grammar of values comes to. -/
def listsParsers : List Parser :=
  [.definition "value", lists.find "value", .definition "list", lists.find "list",
    .many (.definition "value"), .literal "x", .literal "(", .literal ")"]

theorem lists_throughout {node : Parser → Prop} (h : ∀ q ∈ listsParsers, node q) :
    (definition "value").Throughout lists node := by
  have hvalue : definition "value" ∈ listsParsers := List.mem_cons_self ..
  refine Throughout.of_closed hvalue h ?_
  intro q r hq hcall
  simp only [listsParsers, List.mem_cons, List.not_mem_nil, or_false] at hq ⊢
  rcases hq with rfl | rfl | rfl | rfl | rfl | rfl | rfl | rfl
  · cases hcall
    simp
  · cases hcall with
    | choice hmem =>
      simp only [List.mem_cons, List.not_mem_nil, or_false] at hmem
      rcases hmem with rfl | rfl <;> simp
  · cases hcall
    simp
  · cases hcall with
    | sequence hmem =>
      simp only [List.mem_cons, List.not_mem_nil, or_false] at hmem
      rcases hmem with rfl | rfl | rfl <;> simp
  · cases hcall
    simp
  all_goals cases hcall

theorem lists_library : (definition "value").Throughout lists IsLibrary :=
  lists_throughout (by simp [listsParsers, lists, Definitions.find, IsLibrary, List.lookup_cons])

theorem list_library : (definition "list").Throughout lists IsLibrary :=
  (lists_library.call .definition).call (.choice (List.mem_cons_self ..))

theorem value_consumes (source : Source) : Consumes lists source (.definition "value") := by
  have hopen : Consumes lists source (.literal "(") := literal_consumes (by decide)
  have hcross : Consumes lists source (.literal "x") := literal_consumes (by decide)
  have hlist : Consumes lists source (.definition "list") :=
    definition_consumes (sequence_consumes hopen (list_library.call .definition))
  exact definition_consumes (choice_consumes (by simp [hlist, hcross]))

theorem lists_well_formed (source : Source) :
    (definition "value").Throughout lists (WellFormed lists source) := by
  refine lists_throughout ?_
  have hvalue := value_consumes source
  intro q hq
  simp only [listsParsers, List.mem_cons, List.not_mem_nil, or_false] at hq
  rcases hq with rfl | rfl | rfl | rfl | rfl | rfl | rfl | rfl
  · exact ⟨trivial, trivial, trivial⟩
  · exact ⟨trivial, trivial, trivial⟩
  · exact ⟨trivial, trivial, trivial⟩
  · exact ⟨trivial, trivial, trivial⟩
  · exact ⟨trivial, trivial, hvalue⟩
  all_goals exact ⟨trivial, trivial, trivial⟩

/-- A list has read its parenthesis before it refers to anything. -/
theorem list_reads_before_reference {source : Source} {name : String} {c d : Cursor}
    (hx : Entered lists source (.definition "list", c))
    (h : TransGen (Visits lists) (.definition "list", c) (.definition name, d)) :
    c.offset < d.offset := by
  have hbody : Visits lists (.definition "list", c) (lists.find "list", c) := .definition
  have hopen : Consumes lists source (.literal "(") := literal_consumes (by decide)
  rcases sequence_comes_to hopen (hbody.entered hx) (definition_comes_to h) with heq | hfirst | hlt
  · cases heq
  · cases literal_comes_to hfirst
  · exact hlt

theorem lists_ranked (source : Source) :
    Ranked lists source fun name => if name = "value" then 1 else 0 := by
  intro name name' c d hsource hc hpath hstays
  have hlist : ∀ {name' d}, TransGen (Visits lists) (.definition "list", c) (.definition name', d) →
      c.offset < d.offset := list_reads_before_reference ⟨list_library, hsource, hc⟩
  have hbody := definition_comes_to hpath
  by_cases hname : name = "list"
  · subst hname
    exact absurd hstays (Int.ne_of_gt (hlist hpath))
  by_cases hvalue : name = "value"
  · subst hvalue
    rcases choice_comes_to hbody with heq | ⟨q, hmem, hpath⟩
    · cases heq
    · simp only [List.mem_cons, List.not_mem_nil, or_false] at hmem
      rcases hmem with rfl | rfl
      · rcases reflTransGen_iff_eq_or_transGen.mp hpath with heq | hfurther
        · cases heq
          decide
        · exact absurd hstays (Int.ne_of_gt (hlist hfurther))
      · cases literal_comes_to hpath
  · -- Any other name stands for nothing, and nothing is visited from there.
    have hnothing : lists.find name = .invalid (.notAParser .nothing) := by
      simp [Definitions.find, lists, List.lookup_cons, beq_false_of_ne hname,
        beq_false_of_ne hvalue]
    rw [hnothing] at hbody
    rcases hbody.cases_head with heq | ⟨y, hvisit, -⟩
    · cases heq
    · cases hvisit

/-- The values in `(x(x)`, whose outer list is not closed: the parse ends all the same. -/
theorem well_formed_run_ends_unclosed :
    ∃ levels, (∃ r, ∀ more, levels ≤ more → (definition "value").runFor lists more
        (.ofSource (.ofBytes #[0x28, 0x78, 0x28, 0x78, 0x29])) = .value r) ∨
      ∃ fault, ∀ more, levels ≤ more → (definition "value").runFor lists more
        (.ofSource (.ofBytes #[0x28, 0x78, 0x28, 0x78, 0x29])) = .raised fault :=
  well_formed_run_ends (lists_well_formed _) (lists_ranked _)

end Scannerless.Parser
