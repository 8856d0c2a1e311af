import Scannerless.Parser.Levels
import Scannerless.Proofs.Files.Simulation

/-!
# Parsing a file is parsing its bytes

A file that opens gives what its bytes in memory give: the same fault, or the same cursor on the
same source, so that every report on the cursor is the same as well. Where the handle stands when
the parse begins makes no difference, nor where the functions of the author leave it, nor that the
handle is closed when the reports are made.
-/
namespace Scannerless

/-- The copy that a source leaves in memory is the source itself. -/
theorem Source.snapshot_eq (source : Source) : source.snapshot = source := by
  apply Source.eq_of_bytes
  rw [snapshot, readAll_eq]
  exact Array.toArray_toList

theorem Grammar.run_ofSource (grammar : Grammar) (source : Source) :
    grammar.run (.ofSource source) =
      grammar.start.runFor grammar.definitions (levels source) (.ofSource source) := rfl

namespace Engine

variable {grammar : Grammar}
  (hkeeps : grammar.start.Throughout grammar.definitions Parser.KeepsSource)
include hkeeps

/-- The parse of an open file is what comes of moving its handle from read to read. -/
theorem parseHandle_eq (engine : Engine) (drift : OpenFile → Cursor → Nat) (file : OpenFile) :
    engine.parseHandle drift grammar file = engine.parseOpenFile grammar file := by
  have hmirrors : Handled.Mirrors file.source
      (Handled.runFor drift grammar.definitions (Grammar.levels file.source) grammar.start)
      (grammar.start.runFor grammar.definitions (Grammar.levels file.source)) :=
    Handled.runFor_mirrors hkeeps _
  obtain ⟨after, hafter, hrun⟩ := hmirrors.follows (.ofSource file.source) rfl file rfl
  have hkept : Source.ofBytes (after.readAt 0 file.contents.size).1.toArray =
      file.source.snapshot := by
    rw [OpenFile.fst_readAt, hafter, Source.snapshot, Source.readAll, Source.read_eq]
    rfl
  have hsize : file.source.size = file.contents.size := rfl
  rw [← Grammar.run_ofSource] at hrun
  unfold parseHandle parseOpenFile parseSource
  rw [hrun, ← hkept, hsize]
  -- From here on the run is any outcome; its levels must not be computed.
  generalize grammar.run (.ofSource file.source) = outcome
  by_cases hrefuses : engine.refuses file.contents.size = true
  · rw [if_pos hrefuses, if_pos hrefuses]
    rfl
  · rw [if_neg hrefuses, if_neg hrefuses]
    cases outcome <;> rfl

/-- Over an open file, wherever its handle stands, a parse comes out as over the bytes. -/
theorem parseOpenFile_outcome (engine : Engine) (file : OpenFile) :
    (engine.parseOpenFile grammar file).outcome =
      (engine.parseBytes grammar file.contents).outcome := by
  have hsource : file.source = .ofBytes file.contents := Source.eq_of_bytes rfl
  rw [parseOpenFile, parseBytes, hsource, Source.snapshot_eq]
  simp only [parseSource]
  split
  · rfl
  · cases hrun : grammar.run (.ofSource (.ofBytes file.contents)) with
    | raised | unfinished => rfl
    | value r =>
      have hstays : r.source = .ofBytes file.contents := Parser.run_keeps_source hkeeps hrun
      simp only [Outcome.value_bind, Outcome.pure_eq, ← hstays]

end Engine

/-- A cross in parentheses, and behind it a function of the author that goes back to the start. -/
def rewound : Grammar :=
  ⟨.sequence
      [.definition "nested", .custom "<custom>" fun c => .value (c.withResult c.result 0)] false,
    Parser.nested⟩

theorem rewound_keeps_source : rewound.start.Throughout rewound.definitions Parser.KeepsSource := by
  refine .intro trivial fun q hq => ?_
  cases hq with
  | sequence hmem =>
    simp only [List.mem_cons, List.not_mem_nil, or_false] at hmem
    rcases hmem with rfl | rfl
    · have hlibrary : (Parser.definition "nested").Throughout Parser.nested Parser.IsLibrary :=
        Parser.nested_throughout trivial (fun _ => trivial) (fun _ => trivial) fun _ => trivial
      exact hlibrary.mono fun _ h => h.keepsSource
    · refine .intro (fun c r h => ?_) fun q hq => by cases hq
      obtain rfl := Outcome.value.inj h
      rfl

/-- A fresh directory with a file that holds `(x)`. -/
def crossTree : FileTree := .ofFiles [("input.txt", #[0x28, 0x78, 0x29])]

theorem rewound_run :
    ∃ r, rewound.run (.ofSource (.ofBytes #[0x28, 0x78, 0x29])) = .value r ∧ r.failed = false ∧
      r.offset = 0 := by
  obtain ⟨r, hrun, hok, hoffset⟩ : ∃ r, rewound.start.runFor rewound.definitions 12
      (.ofSource (.ofBytes #[0x28, 0x78, 0x29])) = .value r ∧ r.failed = false ∧ r.offset = 0 :=
    ⟨_, rfl, rfl, rfl⟩
  have hlevels : 12 ≤ Grammar.levels (.ofBytes #[0x28, 0x78, 0x29]) := by
    unfold Grammar.levels
    omega
  refine ⟨r, ?_, hok, hoffset⟩
  rw [Grammar.run_ofSource, Parser.runFor_eq_of_le hlevels (by rw [hrun]; nofun), hrun]

end Scannerless
