import Scannerless.Grammar.Query
import Scannerless.Proofs.QueryText.Language
import Scannerless.Proofs.SubstringSearch

/-!
# Words are parsed as they are written

Every run of letters and of blanks is taken as long as it is, and a quoted word up to its closing
quote. Where no word starts the repetition of words ends, an unclosed quote included.
-/
namespace Scannerless.Grammar.Query

open Scannerless.Parser QueryText Text Text.Utf8

variable {c : Cursor} {cs rest blanks : List Char} {n : Nat}

/-- Characters as a parser of single runes gives them. -/
def singles (cs : List Char) : Value :=
  .tuple (cs.map fun ch => .text (String.singleton ch))

theorem yields_blanks (h : c.Ahead (blanks ++ rest)) (hblanks : ∀ ch ∈ blanks, isBlank ch = true)
    (hstop : ∀ ch ∈ rest.head?, isBlank ch = false) (hn : c.source.size < n) :
    Yields [] (n + 1) (.many space) c (c.withResult (singles blanks) (c.behind blanks)) :=
  yields_many_rune "space" h hblanks hstop (Nat.lt_of_le_of_lt h.count_le hn)

theorem yields_ignoreWhitespace (h : c.Ahead (blanks ++ rest))
    (hblanks : ∀ ch ∈ blanks, isBlank ch = true) (hstop : ∀ ch ∈ rest.head?, isBlank ch = false)
    (hn : c.source.size < n) :
    Yields [] (n + 4) ignoreWhitespace c (c.withResult .nothing (c.behind blanks)) := by
  have hmany := yields_blanks h hblanks hstop hn
  exact yields_named h.ok (yields_named h.ok (yields_map h.ok hmany h.ok rfl))

theorem toList_quoteText : quoteText.toList = ['"'] := by decide

/-- A text without quotes is passed by up to the quote behind it. -/
theorem quote_not_ahead (hcs : '"' ∉ cs) (rest : List Char) :
    ∀ k < cs.length, ¬ quoteText.toList <+: (cs ++ rest).drop k := by
  intro k hk hfront
  rw [toList_quoteText, List.drop_append_of_le_length (Nat.le_of_lt hk),
    List.drop_eq_getElem_cons hk, List.cons_append, List.cons_prefix_cons] at hfront
  exact hcs (hfront.1 ▸ List.getElem_mem hk)

theorem yields_untilQuote (h : c.Ahead (cs ++ '"' :: rest)) (hcs : '"' ∉ cs)
    (hn : c.source.size < n) :
    Yields [] (n + 3) (.untilText (.literal quoteText) anyRune) c
      (c.withResult (.text (String.ofList cs)) (c.behind cs)) := by
  have hquote : quoteText.toList <+: '"' :: rest := by
    rw [toList_quoteText]
    exact ⟨rest, rfl⟩
  exact yields_untilText_literal h hquote (quote_not_ahead hcs _) hn

/-- Up to the end of the source no quote is found. -/
theorem refuses_untilQuote (h : c.Ahead cs) (hcs : '"' ∉ cs) (hn : c.source.size < n) :
    Refuses [] (n + 3) (.untilText (.literal quoteText) anyRune) c := by
  have hnone : ∀ k, ¬ quoteText.toList <+: cs.drop k := by
    intro k hfront
    rw [toList_quoteText] at hfront
    exact hcs (List.mem_of_mem_drop (hfront.subset (List.mem_singleton_self _)))
  obtain ⟨v, hfails⟩ := yields_untilText_literal_fails h hnone hn
  exact ⟨_, hfails, rfl⟩

theorem yields_quote (h : c.Ahead ('"' :: rest)) :
    Yields [] 1 (.literal quoteText) c (c.withResult (.text quoteText) (c.behind ['"'])) := by
  have hahead : c.Ahead (quoteText.toList ++ rest) := by
    rw [toList_quoteText]
    exact h
  have hquote : Yields [] 1 (.literal quoteText) c _ := yields_literal_ahead hahead
  rwa [toList_quoteText] at hquote

theorem yields_quoted (h : c.Ahead (Word.written (.quoted cs) ++ rest)) (hcs : '"' ∉ cs)
    (hn : c.source.size < n) :
    Yields [] (n + 6) quoted c
      (c.withResult (.text (String.ofList cs)) (c.behind (Word.written (.quoted cs)))) := by
  have hsplit : Word.written (.quoted cs) ++ rest = ['"'] ++ (cs ++ '"' :: rest) := by
    simp [Word.written]
  rw [hsplit] at h
  have hopened := h.move (.text quoteText)
  have hclosed := hopened.move (.text (String.ofList cs))
  rw [Cursor.withResult_behind] at hclosed
  have hopen := (yields_quote h).mono (show 1 ≤ n + 3 by omega)
  have hcontent := yields_untilQuote hopened hcs hn
  have hclose := (yields_quote hclosed).mono (show 1 ≤ n + 3 by omega)
  rw [Cursor.withResult_behind] at hcontent hclose
  have hrow := Passes.cons hopen h.ok (.cons hcontent h.ok (.cons hclose h.ok (.nil _)))
  exact yields_named h.ok (yields_map h.ok (yields_sequence h.ok hrow false) h.ok rfl)

theorem refuses_quoted (h : c.Ahead cs) (hcs : ∀ rest, cs = '"' :: rest → '"' ∉ rest)
    (hn : c.source.size < n) : Refuses [] (n + 6) quoted c := by
  apply refuses_named h.ok
  apply refuses_map h.ok
  by_cases hquote : quoteText.toList <+: cs
  · obtain ⟨rest, rfl⟩ := hquote
    rw [toList_quoteText] at h hcs
    have hopened := h.move (.text quoteText)
    have hopen := (yields_quote h).mono (show 1 ≤ n + 3 by omega)
    have hcontent := refuses_untilQuote hopened (hcs rest rfl) hn
    exact refuses_sequence [.literal quoteText] h.ok (.cons hopen h.ok (.nil _)) hcontent false
  · have hopen : Refuses [] 1 (.literal quoteText) c := ⟨_, yields_literal_not_ahead h hquote, rfl⟩
    exact refuses_sequence _ h.ok (.nil c) (hopen.mono (by omega)) false

/-- What a word is before the blanks behind it. -/
def content : Parser := .choice [quoted, .letters]

variable {x : Word}

theorem yields_content (hx : x.WellFormed) (h : c.Ahead (x.written ++ rest))
    (hstop : x.IsBare → ∀ ch ∈ rest.head?, isLetter ch = false) (hn : c.source.size < n) :
    Yields [] (n + 7) content c
      (c.withResult (.text (String.ofList x.content)) (c.behind x.written)) := by
  cases x with
  | quoted cs =>
    exact yields_choice [] [.letters] h.ok (fun q hq => by cases hq) (yields_quoted h hx hn) h.ok
  | bare letters =>
    obtain ⟨hne, hletters⟩ := hx
    have hquoted : Refuses [] (n + 6) quoted c := by
      refine refuses_quoted h (fun tail htail => ?_) hn
      cases letters with
      | nil => exact absurd rfl hne
      | cons ch cs =>
        obtain ⟨rfl, _⟩ := List.cons.inj htail
        have hletter := hletters '"' (List.mem_cons_self ..)
        rw [isLetter_quote] at hletter
        cases hletter
    have hrun : Yields [] 1 .letters c _ := yields_runes "letters" h hne hletters (hstop trivial)
    refine yields_choice [quoted] [] h.ok (fun q hq => ?_) (hrun.mono (by omega)) h.ok
    rw [List.mem_singleton.mp hq]
    exact hquoted

theorem refuses_content (h : c.Ahead rest) (hstuck : Stuck rest) (hn : c.source.size < n) :
    Refuses [] (n + 7) content c := by
  apply refuses_choice h.ok
  intro q hq
  simp only [List.mem_cons, List.not_mem_nil, or_false] at hq
  rcases hq with rfl | rfl
  · refine refuses_quoted h (fun tail htail => ?_) hn
    rw [htail] at hstuck
    exact (hstuck '"' rfl).2.2 rfl
  · have hrun : Refuses [] 1 .letters c :=
      refuses_runes "letters" h fun ch hch => (hstuck ch hch).2.1
    exact hrun.mono (by omega)

theorem yields_word (hx : x.WellFormed) (h : c.Ahead (x.written ++ (blanks ++ rest)))
    (hblanks : ∀ ch ∈ blanks, isBlank ch = true) (hstop : ∀ ch ∈ rest.head?, isBlank ch = false)
    (hapart : x.IsBare → ∀ ch ∈ (blanks ++ rest).head?, isLetter ch = false)
    (hn : c.source.size < n) :
    Yields [] (n + 10) word c
      (c.withResult (.text (String.ofList x.content)) (c.behind (x.written ++ blanks))) := by
  have hcontent := yields_content hx h hapart hn
  have hskip := yields_ignoreWhitespace (h.move (.text (String.ofList x.content))) hblanks hstop hn
  rw [Cursor.withResult_behind] at hskip
  have hrow := Passes.cons hcontent h.ok (.cons (hskip.mono (by omega)) h.ok (.nil _))
  exact yields_named h.ok (yields_map h.ok (yields_sequence h.ok hrow true) h.ok rfl)

theorem refuses_word (h : c.Ahead rest) (hstuck : Stuck rest) (hn : c.source.size < n) :
    Refuses [] (n + 10) word c := by
  have hcontent := refuses_content h hstuck hn
  exact refuses_named h.ok (refuses_map h.ok (refuses_sequence _ h.ok (.nil c) hcontent true))

/-- What words stand for. -/
def contents (words : Words) : List Value :=
  words.map fun x => .text (String.ofList x.1.content)

theorem words_pass {words : Words} (hwords : words.WellFormed) (hstuck : Stuck rest)
    (h : c.Ahead (words.written ++ rest)) (hn : c.source.size < n) :
    ∃ v, Passes (Yields [] (n + 10)) (List.replicate words.length word) c (contents words)
      (c.withResult v (c.behind words.written)) := by
  induction hwords generalizing c with
  | nil =>
    refine ⟨c.result, ?_⟩
    rw [show Words.written [] = [] from rfl, Cursor.behind_nil]
    exact .nil c
  | @cons x blanks others hx hblanks hapart hothers ih =>
    have hhead := hothers.head hstuck
    rw [Words.written_cons, List.append_assoc, List.append_assoc] at h
    have hletters : x.IsBare →
        ∀ ch ∈ (blanks ++ (others.written ++ rest)).head?, isLetter ch = false := by
      intro hbare ch hch
      rw [Bool.eq_false_iff]
      intro hletter
      cases blanks with
      | cons b bs =>
        obtain rfl := Option.some.inj hch
        have hblank := isBlank_of_isLetter hletter
        rw [hblanks b (List.mem_cons_self ..)] at hblank
        cases hblank
      | nil =>
        obtain ⟨next, hnext, hnextBare⟩ := (hhead ch hch).2.mp hletter
        exact hapart next hnext hbare hnextBare rfl
    have hword := yields_word hx h hblanks (fun ch hch => (hhead ch hch).1) hletters hn
    rw [← List.append_assoc] at h
    obtain ⟨v, hpasses⟩ := ih (h.move (.text (String.ofList x.content))) hn
    rw [Cursor.withResult_behind, List.append_assoc, ← Words.written_cons] at hpasses
    exact ⟨v, .cons hword h.ok hpasses⟩

theorem yields_words {words : Words} (hwords : words.WellFormed) (hstuck : Stuck rest)
    (h : c.Ahead (words.written ++ rest)) (hn : c.source.size < n) :
    Yields [] (n + 11) (.many word) c
      (c.withResult (.tuple (contents words)) (c.behind words.written)) := by
  obtain ⟨v, hrow⟩ := words_pass hwords hstuck h hn
  have hend := refuses_word (h.move v) hstuck hn
  have hrounds : words.length < n + 10 := by
    have hcount := h.count_le
    have hlength := hwords.length_le
    omega
  exact yields_many h.ok hrow hend hrounds

end Scannerless.Grammar.Query
