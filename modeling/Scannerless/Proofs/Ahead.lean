import Scannerless.Proofs.Matchers

/-!
# Characters ahead

A cursor in the source of a text stands between two characters, and what a matcher does there is
said by the characters ahead of it. Nothing is said of those behind, so what holds in a text holds
wherever the bytes from the cursor on are that text.
-/
namespace Scannerless

open Text.Utf8

namespace Cursor

/-- The bytes from the cursor on are the characters `cs`. -/
structure Ahead (c : Cursor) (cs : List Char) : Prop where
  ok : c.failed = false
  offset_nonneg : 0 ≤ c.offset
  bytes_eq : c.source.bytesFrom c.offset = encodeChars cs

/-- The offset behind the characters `cs`, which lie ahead. -/
def behind (c : Cursor) (cs : List Char) : Int :=
  c.offset + (encodeChars cs).length

theorem behind_nil (c : Cursor) : c.behind [] = c.offset := by
  rw [behind, encodeChars_nil, List.length_nil, Int.natCast_zero, Int.add_zero]

theorem behind_singleton (c : Cursor) (ch : Char) :
    c.behind [ch] = c.offset + (String.utf8EncodeChar ch).length := by
  rw [behind, encodeChars_cons, encodeChars_nil, List.append_nil]

theorem behind_append (c : Cursor) (cs ds : List Char) (v : Value) :
    (c.withResult v (c.behind cs)).behind ds = c.behind (cs ++ ds) := by
  rw [behind, behind, offset_withResult, behind, encodeChars_append, List.length_append]
  omega

/-- Two moves in turn are one. -/
theorem withResult_behind (c : Cursor) (cs ds : List Char) (v w : Value) :
    (c.withResult v (c.behind cs)).withResult w ((c.withResult v (c.behind cs)).behind ds) =
      c.withResult w (c.behind (cs ++ ds)) := by
  rw [behind_append]
  rfl

namespace Ahead

variable {c : Cursor} {cs rest : List Char}

theorem readRune (h : c.Ahead cs) :
    c.source.readRune c.offset =
      cs.head?.map fun ch => (ch, (String.utf8EncodeChar ch).length) := by
  rw [Source.readRune_eq_decodeRune h.offset_nonneg, h.bytes_eq]
  cases cs with
  | nil => rfl
  | cons ch cs =>
    rw [encodeChars_cons, decodeRune_eq, scan_utf8EncodeChar_append]
    rfl

/-- Behind the first characters, with any result. -/
theorem move (h : c.Ahead (cs ++ rest)) (v : Value) :
    (c.withResult v (c.behind cs)).Ahead rest := by
  refine ⟨h.ok, ?_, ?_⟩
  · have hoffset := h.offset_nonneg
    rw [offset_withResult, behind]
    omega
  · rw [source_withResult, offset_withResult, behind, Source.bytesFrom_add h.offset_nonneg,
      h.bytes_eq, encodeChars_append, List.drop_left]

theorem runes (h : c.Ahead (cs ++ rest)) : c.source.Runes c.offset cs (c.behind cs) := by
  refine Source.runes_of_encoded h.offset_nonneg ?_
  rw [h.bytes_eq, encodeChars_append]
  exact List.prefix_append _ _

/-- There are never more characters than bytes. -/
theorem count_le (h : c.Ahead (cs ++ rest)) : cs.length ≤ c.source.size :=
  h.runes.length_le

theorem readBytes_eq (h : c.Ahead cs) (count : Nat) :
    c.readBytes count = (encodeChars cs).take count := by
  rw [readBytes, Source.read_eq_take h.offset_nonneg, h.bytes_eq]

end Ahead

/-- Behind other bytes, whatever they are. -/
theorem ahead_of_bytes {c : Cursor} {front : List UInt8} {cs : List Char} (hc : c.failed = false)
    (hbytes : c.source.bytes.toList = front ++ encodeChars cs) (ho : c.offset = front.length) :
    c.Ahead cs := by
  refine ⟨hc, by omega, ?_⟩
  rw [Source.bytesFrom, hbytes, ho, Int.toNat_natCast, List.drop_left]

theorem ahead_ofText (text : String) : (Cursor.ofSource (.ofText text)).Ahead text.toList :=
  @ahead_of_bytes _ [] _ rfl rfl rfl

end Cursor

namespace Parser

variable {definitions : Definitions} {c : Cursor} {cs rest : List Char} {accepts : Char → Bool}
  {text : String} {n : Nat}

/-- What stops a run of accepted characters. -/
theorem readRune_refused (h : c.Ahead rest) (hstop : ∀ ch ∈ rest.head?, accepts ch = false) :
    ∀ ch w, c.source.readRune c.offset = some (ch, w) → accepts ch = false := by
  intro ch w hread
  rw [h.readRune, Option.map_eq_some_iff] at hread
  obtain ⟨d, hd, hpair⟩ := hread
  obtain rfl := (Prod.mk.inj hpair).1
  exact hstop d hd

theorem yields_many_rune (what : String) (h : c.Ahead (cs ++ rest))
    (haccepts : ∀ ch ∈ cs, accepts ch = true) (hstop : ∀ ch ∈ rest.head?, accepts ch = false)
    (hn : cs.length < n) :
    Yields definitions (n + 1) (.many (.rune accepts none what)) c
      (c.withResult (.tuple (cs.map fun ch => .text (String.singleton ch))) (c.behind cs)) := by
  obtain ⟨v, hpasses, hend⟩ := longest_runes_pass none what h.runes h.ok haccepts
    (readRune_refused (h.move .nothing) hstop) (Nat.zero_lt_of_lt hn)
  exact yields_many h.ok hpasses hend hn

theorem yields_runes (what : String) (h : c.Ahead (cs ++ rest)) (hne : cs ≠ [])
    (haccepts : ∀ ch ∈ cs, accepts ch = true) (hstop : ∀ ch ∈ rest.head?, accepts ch = false) :
    Yields definitions 1 (.runes accepts none what) c
      (c.withResult (.text (String.ofList cs)) (c.behind cs)) := by
  refine yields_leaf (.runes ?_) h.ok
  exact Cursor.matchRunes_of_runes none what h.runes hne haccepts
    (readRune_refused (h.move .nothing) hstop)

theorem refuses_runes (what : String) (h : c.Ahead rest)
    (hstop : ∀ ch ∈ rest.head?, accepts ch = false) :
    Refuses definitions 1 (.runes accepts none what) c := by
  have hrefused := Cursor.matchRunes_of_refused none what (readRune_refused h hstop)
  exact ⟨_, yields_leaf (.runes hrefused) h.ok, Cursor.failed_refuse c none _⟩

/-- The window of a literal holds it exactly where its characters lie ahead. -/
theorem readBytes_encode_iff (h : c.Ahead cs) :
    c.readBytes (encode text).length = encode text ↔ text.toList <+: cs := by
  rw [Cursor.readBytes_eq_iff h.offset_nonneg, h.bytes_eq, encode, encodeChars_prefix_iff]

theorem yields_literal_ahead (h : c.Ahead (text.toList ++ rest)) :
    Yields definitions 1 (.literal text) c (c.withResult (.text text) (c.behind text.toList)) :=
  yields_literal_of_bytes h.ok ((readBytes_encode_iff h).mpr (List.prefix_append _ _))

theorem yields_literal_not_ahead (h : c.Ahead cs) (hcs : ¬ text.toList <+: cs) :
    Yields definitions 1 (.literal text) c (c.withError (.literalMismatch text c.offset)) :=
  yields_literal_of_not_bytes h.ok (mt (readBytes_encode_iff h).mp hcs)

/-- Rounds of a repetition until a literal, as long as the literal does not lie ahead. -/
theorem rounds_until_literal (h : c.Ahead (cs ++ rest))
    (hcs : ∀ k < cs.length, ¬ text.toList <+: (cs ++ rest).drop k) (hn : 0 < n) :
    ∃ v, Passes (Pending (Yields definitions n) (.literal text)) (List.replicate cs.length anyRune)
      c
      (cs.map fun ch => .text (String.singleton ch)) (c.withResult v (c.behind cs)) := by
  induction cs generalizing c with
  | nil =>
    refine ⟨c.result, ?_⟩
    rw [Cursor.behind_nil]
    exact .nil c
  | cons ch cs ih =>
    have hread := h.readRune
    rw [List.cons_append, List.head?_cons, Option.map_some] at hread
    have hstop : Yields definitions 1 (.literal text) c _ :=
      yields_literal_not_ahead h (hcs 0 (Nat.succ_pos _))
    have hbody : Yields definitions 1 anyRune c
        (c.withResult (.text (String.singleton ch)) (c.behind [ch])) := by
      rw [Cursor.behind_singleton]
      exact yields_anyRune h.ok hread
    have hnext : (c.withResult (.text (String.singleton ch)) (c.behind [ch])).Ahead (cs ++ rest) :=
      @Cursor.Ahead.move c [ch] (cs ++ rest) h _
    obtain ⟨v, hpasses⟩ := ih hnext fun k hk => hcs (k + 1) (Nat.succ_lt_succ hk)
    rw [Cursor.behind_append, List.singleton_append] at hpasses
    have hround : Pending (Yields definitions n) (.literal text) anyRune c _ :=
      ⟨⟨_, hstop.mono hn, rfl⟩, hbody.mono hn⟩
    exact ⟨v, .cons hround h.ok hpasses⟩

end Parser

end Scannerless
