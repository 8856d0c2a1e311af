import Scannerless.Text.Blank
import Scannerless.Text.Letter

/-!
# Queries as they are written

What a query is: the keyword in any case, blanks, and words with blanks behind each of them. Every
text behind the keyword is such a query up to a place where neither a blank nor a word starts.
Nothing here knows of parsers or bytes.
-/
namespace Scannerless

open Text

namespace QueryText

/-- A run of letters, or any text without quotes between two of them. -/
inductive Word where
  | bare (letters : List Char)
  | quoted (content : List Char)

namespace Word

def written : Word → List Char
  | bare letters => letters
  | quoted content => '"' :: (content ++ ['"'])

def content : Word → List Char
  | bare letters => letters
  | quoted content => content

def WellFormed : Word → Prop
  | bare letters => letters ≠ [] ∧ ∀ c ∈ letters, isLetter c = true
  | quoted content => '"' ∉ content

def IsBare : Word → Prop
  | bare _ => True
  | quoted _ => False

end Word

/-- Words, each with the blanks behind it. -/
abbrev Words := List (Word × List Char)

namespace Words

def written (words : Words) : List Char :=
  words.flatMap fun (word, blanks) => word.written ++ blanks

/-- Two bare words that follow each other have a blank between them. -/
inductive WellFormed : Words → Prop where
  | nil : WellFormed []
  | cons {word : Word} {blanks : List Char} {rest : Words} (hword : word.WellFormed)
      (hblanks : ∀ c ∈ blanks, isBlank c = true)
      (hapart : ∀ next ∈ rest.head?, word.IsBare → next.1.IsBare → blanks ≠ [])
      (hrest : WellFormed rest) : WellFormed ((word, blanks) :: rest)

theorem written_cons (word : Word) (blanks : List Char) (rest : Words) :
    written ((word, blanks) :: rest) = word.written ++ (blanks ++ rest.written) := by
  rw [written, List.flatMap_cons, List.append_assoc]
  rfl

end Words

/-- Neither a blank nor a word starts here. -/
def Stuck (rest : List Char) : Prop :=
  ∀ c ∈ rest.head?, isBlank c = false ∧ isLetter c = false ∧ (c = '"' → '"' ∉ rest.tail)

/-- What may be left over behind a query: nothing, or one character of one byte, no blank and no
letter. -/
def Ended (rest : List Char) : Prop :=
  rest = [] ∨ ∃ c, rest = [c] ∧ c.utf8Size = 1 ∧ isBlank c = false ∧ isLetter c = false

/-- The keyword, in either case of each letter. -/
def IsKeyword (keyword : List Char) : Prop :=
  keyword.map Char.toLower = "select".toList

/-- The text starts with the keyword. -/
def StartsWithKeyword (cs : List Char) : Prop :=
  ∃ keyword rest, IsKeyword keyword ∧ cs = keyword ++ rest

end QueryText

/-- A text taken apart as a query. -/
structure QueryText where
  keyword : List Char
  blanks : List Char
  words : QueryText.Words
  rest : List Char

namespace QueryText

/-- The query without what is left over. -/
def front (q : QueryText) : List Char :=
  q.keyword ++ (q.blanks ++ q.words.written)

def written (q : QueryText) : List Char :=
  q.front ++ q.rest

structure WellFormed (q : QueryText) : Prop where
  keyword : IsKeyword q.keyword
  blanks : ∀ c ∈ q.blanks, isBlank c = true
  words : Words.WellFormed q.words

theorem WellFormed.startsWithKeyword {q : QueryText} (h : q.WellFormed) :
    StartsWithKeyword q.written := by
  refine ⟨q.keyword, q.blanks ++ q.words.written ++ q.rest, h.keyword, ?_⟩
  rw [written, front, List.append_assoc]

theorem Ended.stuck {rest : List Char} (h : Ended rest) : Stuck rest := by
  intro c hc
  rcases h with rfl | ⟨d, rfl, _, hblank, hletter⟩
  · cases hc
  · obtain rfl := Option.some.inj hc
    exact ⟨hblank, hletter, fun _ => List.not_mem_nil⟩

/-- No character is both. -/
theorem isBlank_of_isLetter {c : Char} (h : isLetter c = true) : isBlank c = false := by
  have hapart : ∀ b ∈ blankRanges, ∀ l ∈ letterRanges, b.2 < l.1 ∨ l.2 < b.1 := by decide +kernel
  cases hblank : isBlank c with
  | false => rfl
  | true =>
    obtain ⟨b, hb, hbfirst, hblast⟩ :=
      (CodeRanges.memCode_eq_true_iff blankRanges_ascend _).mp hblank
    obtain ⟨l, hl, hlfirst, hllast⟩ := (CodeRanges.memCode_eq_true_iff letterRanges_ascend _).mp h
    have := hapart b hb l hl
    omega

theorem isBlank_quote : isBlank '"' = false := by decide

theorem isLetter_quote : isLetter '"' = false := by decide +kernel

/-- A word starts with a letter if it is bare, and with a quote otherwise. -/
theorem Word.WellFormed.head {word : Word} (h : word.WellFormed) :
    ∃ c cs, word.written = c :: cs ∧ isBlank c = false ∧ (isLetter c = true ↔ word.IsBare) := by
  cases word with
  | bare letters =>
    obtain ⟨hne, hletters⟩ := h
    cases letters with
    | nil => exact absurd rfl hne
    | cons c cs =>
      have hc := hletters c (List.mem_cons_self ..)
      exact ⟨c, cs, rfl, isBlank_of_isLetter hc, iff_of_true hc trivial⟩
  | quoted content =>
    refine ⟨'"', content ++ ['"'], rfl, isBlank_quote, iff_of_false ?_ id⟩
    rw [isLetter_quote]
    exact Bool.false_ne_true

/-- What stands at the front of words and a rest is no blank, and it is a letter exactly where a
bare word starts. -/
theorem Words.WellFormed.head {words : Words} {rest : List Char} (h : words.WellFormed)
    (hrest : Stuck rest) : ∀ c ∈ (words.written ++ rest).head?,
      isBlank c = false ∧ (isLetter c = true ↔ ∃ next ∈ words.head?, next.1.IsBare) := by
  intro c hc
  cases h with
  | nil =>
    obtain ⟨hblank, hletter, _⟩ := hrest c hc
    rw [hletter]
    exact ⟨hblank, iff_of_false Bool.false_ne_true nofun⟩
  | @cons word blanks others hword =>
    obtain ⟨d, ds, hwritten, hblank, hbare⟩ := hword.head
    rw [Words.written_cons, hwritten] at hc
    obtain rfl := Option.some.inj hc
    refine ⟨hblank, hbare.trans ⟨fun h => ⟨_, rfl, h⟩, ?_⟩⟩
    rintro ⟨next, hnext, h⟩
    obtain rfl := Option.some.inj hnext
    exact h

theorem Words.WellFormed.length_le {words : Words} (h : words.WellFormed) :
    words.length ≤ words.written.length := by
  induction h with
  | nil => exact Nat.le_refl 0
  | cons hword _ _ _ ih =>
    obtain ⟨c, cs, hwritten, _⟩ := hword.head
    rw [Words.written_cons, hwritten, List.length_append, List.length_append, List.length_cons,
      List.length_cons]
    omega

/-! Taking a text apart. -/

theorem exists_run (accepts : Char → Bool) (cs : List Char) :
    ∃ run rest, cs = run ++ rest ∧ (∀ c ∈ run, accepts c = true) ∧
      ∀ c ∈ rest.head?, accepts c = false := by
  induction cs with
  | nil => exact ⟨[], [], rfl, nofun, nofun⟩
  | cons c cs ih =>
    cases hc : accepts c with
    | false =>
      exact ⟨[], c :: cs, rfl, nofun, fun d hd => by obtain rfl := Option.some.inj hd; exact hc⟩
    | true =>
      obtain ⟨run, rest, rfl, hrun, hstop⟩ := ih
      exact ⟨c :: run, rest, rfl, List.forall_mem_cons.mpr ⟨hc, hrun⟩, hstop⟩

/-- Text up to the next quote. -/
theorem exists_quoted {cs : List Char} (h : '"' ∈ cs) :
    ∃ content rest, cs = content ++ '"' :: rest ∧ '"' ∉ content := by
  obtain ⟨content, rest, rfl, hcontent, hstop⟩ := exists_run (· != '"') cs
  have hnone : '"' ∉ content := fun hmem => by simpa using hcontent '"' hmem
  cases rest with
  | nil =>
    rw [List.append_nil] at h
    exact absurd h hnone
  | cons c rest =>
    obtain rfl : c = '"' := by simpa using hstop c rfl
    exact ⟨content, rest, rfl, hnone⟩

/-- A word at the front, as long as it can be. -/
theorem exists_word {cs : List Char} (hblank : ∀ c ∈ cs.head?, isBlank c = false) (h : ¬ Stuck cs) :
    ∃ (word : Word) (rest : List Char), cs = word.written ++ rest ∧ word.WellFormed ∧
      (word.IsBare → ∀ c ∈ rest.head?, isLetter c = false) := by
  cases cs with
  | nil => exact absurd nofun h
  | cons c cs =>
    cases hletter : isLetter c with
    | true =>
      obtain ⟨run, rest, rfl, hrun, hstop⟩ := exists_run isLetter cs
      refine ⟨.bare (c :: run), rest, rfl, ⟨List.cons_ne_nil c run, ?_⟩, fun _ => hstop⟩
      exact List.forall_mem_cons.mpr ⟨hletter, hrun⟩
    | false =>
      by_cases hquote : c = '"' ∧ '"' ∈ cs
      · obtain ⟨rfl, hmem⟩ := hquote
        obtain ⟨content, rest, rfl, hcontent⟩ := exists_quoted hmem
        exact ⟨.quoted content, rest, by simp [Word.written], hcontent, False.elim⟩
      · refine absurd (fun d hd => ?_) h
        obtain rfl := Option.some.inj hd
        exact ⟨hblank c rfl, hletter, fun hc hmem => hquote ⟨hc, hmem⟩⟩

theorem exists_words {cs : List Char} (hblank : ∀ c ∈ cs.head?, isBlank c = false) :
    ∃ (words : Words) (rest : List Char), cs = words.written ++ rest ∧ words.WellFormed ∧
    Stuck rest := by
  obtain ⟨length, hlength⟩ : ∃ length, cs.length ≤ length := ⟨_, Nat.le_refl _⟩
  induction length generalizing cs with
  | zero =>
    obtain rfl : cs = [] := List.length_eq_zero_iff.mp (Nat.le_zero.mp hlength)
    exact ⟨[], [], rfl, .nil, nofun⟩
  | succ length ih =>
    by_cases hstuck : Stuck cs
    · exact ⟨[], cs, rfl, .nil, hstuck⟩
    · obtain ⟨word, behind, rfl, hword, hend⟩ := exists_word hblank hstuck
      obtain ⟨c, ds, hwritten, _⟩ := hword.head
      obtain ⟨blanks, tail, rfl, hblanks, hstop⟩ := exists_run isBlank behind
      rw [hwritten, List.length_append, List.length_append, List.length_cons] at hlength
      obtain ⟨words, rest, rfl, hwords, hrest⟩ := ih hstop (by omega)
      refine ⟨(word, blanks) :: words, rest, ?_, .cons hword hblanks ?_ hwords, hrest⟩
      · rw [Words.written_cons, List.append_assoc, List.append_assoc]
      · -- Without blanks the next word would go on the run of letters.
        rintro next hnext hbare hnextBare rfl
        cases hwords with
        | nil => cases hnext
        | @cons nextWord _ _ hnextWord =>
          obtain rfl := Option.some.inj hnext
          obtain ⟨d, ds', hnextWritten, _, hletter⟩ := hnextWord.head
          have hfalse := hend hbare d (by rw [Words.written_cons, hnextWritten]; rfl)
          rw [hletter.mpr hnextBare] at hfalse
          cases hfalse

/-- Every text that starts with the keyword can be taken apart. -/
theorem exists_parts {cs : List Char} (h : StartsWithKeyword cs) :
    ∃ q : QueryText, q.WellFormed ∧ Stuck q.rest ∧ cs = q.written := by
  obtain ⟨keyword, behind, hkeyword, rfl⟩ := h
  obtain ⟨blanks, tail, rfl, hblanks, hstop⟩ := exists_run isBlank behind
  obtain ⟨words, rest, rfl, hwords, hrest⟩ := exists_words hstop
  refine ⟨⟨keyword, blanks, words, rest⟩, ⟨hkeyword, hblanks, hwords⟩, hrest, ?_⟩
  rw [written, front, List.append_assoc, List.append_assoc]

end QueryText

end Scannerless
