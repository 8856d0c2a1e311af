import Scannerless.Parser.Matching
import Scannerless.Proofs.RuneWidth

/-!
# The runes of a source

Reading a rune by growing windows is one decoding of the bytes that are left, since a window that
ends inside a rune only asks for more. In the source of a text the runes at a boundary are the
characters behind it.
-/
namespace Scannerless.Source

open Text.Utf8

variable {source : Source} {o e : Int} {c : Char} {w : Nat}

/-- The bytes from an offset on. -/
def bytesFrom (source : Source) (o : Int) : List UInt8 :=
  source.bytes.toList.drop o.toNat

theorem length_bytesFrom (source : Source) (o : Int) :
    (source.bytesFrom o).length = source.size - o.toNat := by
  rw [bytesFrom, List.length_drop, Array.length_toList]
  rfl

theorem bytesFrom_add (ho : 0 ≤ o) (count : Nat) :
    source.bytesFrom (o + count) = (source.bytesFrom o).drop count := by
  rw [bytesFrom, bytesFrom, List.drop_drop]
  congr 1
  omega

theorem read_eq_take (ho : 0 ≤ o) (count : Nat) :
    source.read o count = (source.bytesFrom o).take count := by
  rw [source.read_eq, window, bytesFrom]
  split
  · have hcount : count = 0 := by omega
    rw [hcount, List.take_zero]
  · have hstop : (o + count).toNat = o.toNat + count := by omega
    rw [hstop, Array.toList_extract, List.extract_eq_take_drop]
    congr 1
    omega

/-- Windows of `width` and more bytes, when smaller ones ended inside a rune. -/
theorem probe_eq_decodeRune (ho : 0 ≤ o) (count : Nat) :
    ∀ width, width + count = maxRuneBytes → width ≤ (source.bytesFrom o).length →
      scan ((source.bytesFrom o).take width) = .cutShort →
      source.probe o (List.range' (width + 1) count) = decodeRune (source.bytesFrom o) := by
  induction count with
  | zero =>
    intro width hwidth hlength hcut
    have hlt := length_lt_of_scan_cutShort hcut
    rw [List.length_take] at hlt
    omega
  | succ count ih =>
    intro width hwidth hlength hcut
    rw [List.range'_succ, probe, read_eq_take ho]
    rw [List.length_take]
    split
    · -- The window is the whole rest, and it is cut short.
      have hall : (source.bytesFrom o).take width = source.bytesFrom o :=
        List.take_of_length_le (by omega)
      rw [hall] at hcut
      rw [decodeRune_eq, hcut]
    · rcases scan_take (source.bytesFrom o) (width + 1) with hnext | hnext
      · have hnone : decodeRune ((source.bytesFrom o).take (width + 1)) = none := by
          rw [decodeRune_eq, hnext]
        rw [hnone]
        exact ih (width + 1) (by omega) (by omega) hnext
      · have hsame : decodeRune ((source.bytesFrom o).take (width + 1)) =
            decodeRune (source.bytesFrom o) := by
          rw [decodeRune_eq, hnext, ← decodeRune_eq]
        rw [hsame]
        cases hdecode : decodeRune (source.bytesFrom o) with
        | some decoded => rfl
        | none =>
          rw [hdecode] at hsame
          have hcut' : scan ((source.bytesFrom o).take (width + 1)) = .cutShort := by
            rw [decodeRune_eq] at hsame
            split at hsame
            · cases hsame
            · assumption
            · cases hsame
          have hrest := ih (width + 1) (by omega) (by omega) hcut'
          rwa [hdecode] at hrest

/-- The rune at an offset is the first one of the bytes that are left. -/
theorem readRune_eq_decodeRune (ho : 0 ≤ o) :
    source.readRune o = decodeRune (source.bytesFrom o) :=
  probe_eq_decodeRune ho maxRuneBytes 0 rfl (Nat.zero_le _) rfl

theorem readRune_eq_some_iff (ho : 0 ≤ o) (hc : c ≠ replacementRune) :
    source.readRune o = some (c, w) ↔
      w = (String.utf8EncodeChar c).length ∧
        ∃ rest, source.bytesFrom o = String.utf8EncodeChar c ++ rest := by
  rw [readRune_eq_decodeRune ho, ← scan_eq_scalar_iff, decodeRune_eq]
  cases scan (source.bytesFrom o) with
  | scalar d width => simp
  | cutShort => simp
  | malformed width =>
    simp only [Option.some.injEq, Prod.mk.injEq, reduceCtorEq, iff_false]
    rintro ⟨rfl, _⟩
    exact hc rfl

/-- A window as long as the encoding of a rune holds it exactly where the rune is read. -/
theorem read_eq_utf8EncodeChar_iff (ho : 0 ≤ o) (hc : c ≠ replacementRune) :
    source.read o (String.utf8EncodeChar c).length = String.utf8EncodeChar c ↔
      source.readRune o = some (c, (String.utf8EncodeChar c).length) := by
  rw [read_eq_take ho, readRune_eq_some_iff ho hc]
  constructor
  · intro h
    refine ⟨rfl, (source.bytesFrom o).drop (String.utf8EncodeChar c).length, ?_⟩
    rw [← List.take_append_drop (String.utf8EncodeChar c).length (source.bytesFrom o)]
    rw [h]
    simp
  · rintro ⟨_, rest, h⟩
    rw [h, List.take_left']
    rfl

/-- `source.Runes o cs e`: the runes from `o` to `e` are `cs`. -/
inductive Runes (source : Source) : Int → List Char → Int → Prop where
  | nil (o : Int) : Runes source o [] o
  | cons {o e : Int} {c : Char} {w : Nat} {cs : List Char} (h : source.readRune o = some (c, w))
      (hrest : Runes source (o + w) cs e) : Runes source o (c :: cs) e

namespace Runes

variable {cs ds : List Char} {m : Int}

theorem append (h : source.Runes o cs m) (h' : source.Runes m ds e) :
    source.Runes o (cs ++ ds) e := by
  induction h with
  | nil => exact h'
  | cons hread _ ih => exact .cons hread (ih h')

theorem split (h : source.Runes o (cs ++ ds) e) :
    ∃ m, source.Runes o cs m ∧ source.Runes m ds e := by
  induction cs generalizing o with
  | nil => exact ⟨o, .nil o, h⟩
  | cons c cs ih =>
    cases h with
    | cons hread hrest =>
      obtain ⟨m, hcs, hds⟩ := ih hrest
      exact ⟨m, .cons hread hcs, hds⟩

theorem single (h : source.readRune o = some (c, w)) : source.Runes o [c] (o + w) :=
  .cons h (.nil _)

/-- Every rune takes a byte at least, and all of them lie inside the source. -/
theorem bounds (h : source.Runes o cs e) :
    o + cs.length ≤ e ∧ (cs ≠ [] → 0 ≤ o ∧ e ≤ source.size) := by
  induction h with
  | nil => simp
  | @cons o e c w cs hread hrest ih =>
    obtain ⟨hlow, hpos, hhigh⟩ := readRune_bounds hread
    obtain ⟨hlength, hinside⟩ := ih
    rw [List.length_cons]
    refine ⟨by omega, fun _ => ⟨hlow, ?_⟩⟩
    cases cs with
    | nil =>
      cases hrest
      exact hhigh
    | cons d ds => exact (hinside (List.cons_ne_nil d ds)).2

/-- There are never more runes than bytes. -/
theorem length_le (h : source.Runes o cs e) : cs.length ≤ source.size := by
  obtain ⟨hle, hinside⟩ := h.bounds
  cases cs with
  | nil => exact Nat.zero_le _
  | cons c cs =>
    have hends := hinside (List.cons_ne_nil c cs)
    omega

end Runes

/-- The characters that are encoded in front are the runes that are read. -/
theorem runes_of_encoded {cs : List Char} (ho : 0 ≤ o) (h : encodeChars cs <+: source.bytesFrom o) :
    source.Runes o cs (o + (encodeChars cs).length) := by
  obtain ⟨rest, hbytes⟩ := h
  induction cs generalizing o with
  | nil =>
    rw [encodeChars_nil, List.length_nil, Int.natCast_zero, Int.add_zero]
    exact .nil o
  | cons c cs ih =>
    rw [encodeChars_cons, List.append_assoc] at hbytes
    have hread : source.readRune o = some (c, (String.utf8EncodeChar c).length) := by
      rw [readRune_eq_decodeRune ho, ← hbytes, decodeRune_eq, scan_utf8EncodeChar_append]
    have hnext : encodeChars cs ++ rest =
        source.bytesFrom (o + (String.utf8EncodeChar c).length) := by
      rw [bytesFrom_add ho, ← hbytes, List.drop_left]
    have hrest := ih (by omega) hnext
    rw [Int.add_assoc, ← Int.natCast_add, ← List.length_append, ← encodeChars_cons] at hrest
    exact .cons hread hrest

/-- Runes that are read are encoded in front, unless one of them may stand for a byte that encodes
nothing. -/
theorem Runes.encoded {cs : List Char} (h : source.Runes o cs e) (ho : 0 ≤ o)
    (hcs : replacementRune ∉ cs) :
    encodeChars cs <+: source.bytesFrom o ∧ e = o + (encodeChars cs).length := by
  induction h with
  | nil o => exact ⟨List.nil_prefix, (Int.add_zero o).symm⟩
  | @cons o e c w cs hread _ ih =>
    obtain ⟨hc, hcs⟩ := not_or.mp (mt List.mem_cons.mpr hcs)
    obtain ⟨rfl, rest, hbytes⟩ := (readRune_eq_some_iff ho (Ne.symm hc)).mp hread
    obtain ⟨hbegins, rfl⟩ := ih (by omega) hcs
    rw [bytesFrom_add ho, hbytes, List.drop_left] at hbegins
    rw [hbytes, encodeChars_cons, List.prefix_append_right_inj, List.length_append]
    exact ⟨hbegins, by omega⟩

/-- Accepted runes in front of one that is refused, or of none, are the longest run. -/
theorem runesWhileFrom_of_runes {cs : List Char} {accepts : Char → Outcome Bool}
    (h : source.Runes o cs e) (haccepts : ∀ c ∈ cs, accepts c = .value true)
    (hstop : ∀ c w, source.readRune e = some (c, w) → accepts c = .value false) {steps : Nat}
    (hsteps : cs.length ≤ steps) (found : List Char) :
    source.runesWhileFrom accepts steps o found = .value (found.reverse ++ cs, e) := by
  induction h generalizing steps found with
  | nil o =>
    rw [List.append_nil]
    cases steps with
    | zero => rfl
    | succ steps => exact runesWhileFrom_succ_eq_value_iff.mpr (.inr ⟨hstop, rfl⟩)
  | @cons o e c w cs hread _ ih =>
    obtain ⟨steps, rfl⟩ : ∃ n, steps = n + 1 :=
      ⟨steps - 1, by rw [List.length_cons] at hsteps; omega⟩
    obtain ⟨hfirst, hrest⟩ := List.forall_mem_cons.mp haccepts
    have hothers := ih hrest hstop (Nat.le_of_succ_le_succ hsteps) (c :: found)
    rw [List.reverse_cons, List.append_assoc, List.singleton_append] at hothers
    exact runesWhileFrom_succ_eq_value_iff.mpr (.inl ⟨c, w, hread, hfirst, hothers⟩)

theorem runesWhile_of_runes {cs : List Char} {accepts : Char → Outcome Bool}
    (h : source.Runes o cs e) (haccepts : ∀ c ∈ cs, accepts c = .value true)
    (hstop : ∀ c w, source.readRune e = some (c, w) → accepts c = .value false) :
    source.runesWhile accepts o = .value (cs, e) :=
  runesWhileFrom_of_runes h haccepts hstop h.length_le []

/-- A counted read finds the next runes, and `found` holds those that it found before, last
first. -/
theorem readRunesFrom_eq_some_iff {count : Nat} {found all : List Char} :
    source.readRunesFrom count o found = some (all, e) ↔
      ∃ cs, source.Runes o cs e ∧ cs.length = count ∧ all = found.reverse ++ cs := by
  induction count generalizing o found with
  | zero =>
    rw [readRunesFrom, Option.some.injEq, Prod.mk.injEq]
    constructor
    · rintro ⟨rfl, rfl⟩
      exact ⟨[], .nil o, rfl, (List.append_nil _).symm⟩
    · rintro ⟨cs, hruns, hlength, rfl⟩
      obtain rfl := List.eq_nil_of_length_eq_zero hlength
      cases hruns
      exact ⟨(List.append_nil _).symm, rfl⟩
  | succ count ih =>
    rw [readRunesFrom]
    constructor
    · intro h
      cases hread : source.readRune o with
      | none =>
        rw [hread] at h
        cases h
      | some rune =>
        rw [hread] at h
        obtain ⟨cs, hruns, hlength, rfl⟩ := ih.mp h
        exact ⟨rune.1 :: cs, .cons hread hruns, congrArg Nat.succ hlength, by simp⟩
    · rintro ⟨cs, hruns, hlength, rfl⟩
      cases hruns with
      | nil => cases hlength
      | @cons _ _ c w cs hread hrest =>
        rw [hread]
        exact ih.mpr ⟨cs, hrest, Nat.succ.inj hlength, by simp⟩

theorem readRunes_eq_some_iff {count : Nat} {cs : List Char} :
    source.readRunes count o = some (cs, e) ↔ source.Runes o cs e ∧ cs.length = count := by
  rw [readRunes, readRunesFrom_eq_some_iff]
  constructor
  · rintro ⟨ds, hruns, hlength, rfl⟩
    exact ⟨hruns, hlength⟩
  · rintro ⟨hruns, hlength⟩
    exact ⟨cs, hruns, hlength, rfl⟩

/-- Accepted runes as far as they go, by induction on the bytes that are left. -/
theorem exists_runes_while (source : Source) (accepts : Char → Bool) (o : Int) :
    ∃ cs e, source.Runes o cs e ∧ (∀ c ∈ cs, accepts c = true) ∧
      ∀ c w, source.readRune e = some (c, w) → accepts c = false := by
  obtain ⟨left, hleft⟩ : ∃ left : Nat, source.size - o ≤ left := ⟨(source.size - o).toNat, by omega⟩
  induction left generalizing o with
  | zero =>
    refine ⟨[], o, .nil o, nofun, fun c w hread => ?_⟩
    have hbounds := readRune_bounds hread
    omega
  | succ left ih =>
    by_cases hnext : ∃ c w, source.readRune o = some (c, w) ∧ accepts c = true
    · obtain ⟨c, w, hread, haccepts⟩ := hnext
      have hbounds := readRune_bounds hread
      obtain ⟨cs, e, hruns, hcs, hstop⟩ := ih (o + w) (by omega)
      exact ⟨c :: cs, e, .cons hread hruns, List.forall_mem_cons.mpr ⟨haccepts, hcs⟩, hstop⟩
    · refine ⟨[], o, .nil o, nofun, fun c w hread => ?_⟩
      exact Bool.eq_false_iff.mpr fun haccepts => hnext ⟨c, w, hread, haccepts⟩

/-! The source of a text, at a boundary between two characters. -/

theorem bytesFrom_boundary (before after : List Char) :
    (ofBytes (encodeChars (before ++ after)).toArray).bytesFrom (encodeChars before).length =
      encodeChars after := by
  rw [bytesFrom, ofBytes, encodeChars_append, Int.toNat_natCast, List.drop_left']
  rfl

theorem readRune_boundary (before after : List Char) :
    (ofBytes (encodeChars (before ++ after)).toArray).readRune (encodeChars before).length =
      after.head?.map fun c => (c, (String.utf8EncodeChar c).length) := by
  rw [readRune_eq_decodeRune (by omega), bytesFrom_boundary]
  cases after with
  | nil => rfl
  | cons c cs =>
    rw [encodeChars_cons, decodeRune_eq, scan_utf8EncodeChar_append]
    rfl

/-- The runes from a boundary are characters, and they end at a boundary. -/
theorem runes_boundary_iff (before after : List Char) {cs : List Char} :
    (ofBytes (encodeChars (before ++ after)).toArray).Runes (encodeChars before).length cs e ↔
      ∃ rest, after = cs ++ rest ∧ e = (encodeChars before).length + (encodeChars cs).length := by
  constructor
  · intro h
    induction cs generalizing before after with
    | nil =>
      cases h
      exact ⟨after, rfl, (Int.add_zero _).symm⟩
    | cons c cs ih =>
      cases h with
      | cons hread hrest =>
        rw [readRune_boundary] at hread
        cases after with
        | nil => cases hread
        | cons d rest =>
          obtain ⟨rfl, rfl⟩ := Prod.mk.inj (Option.some.inj hread)
          -- The first character moves from what is ahead to what is behind.
          have hmove : before ++ d :: rest = before ++ [d] ++ rest := List.append_cons before d rest
          have hbehind : (encodeChars (before ++ [d])).length =
              (encodeChars before).length + (String.utf8EncodeChar d).length := by
            rw [encodeChars_append, List.length_append, encodeChars_cons, encodeChars_nil,
              List.append_nil]
          rw [hmove, ← Int.natCast_add, ← hbehind] at hrest
          obtain ⟨rest, rfl, rfl⟩ := ih (before ++ [d]) rest hrest
          refine ⟨rest, rfl, ?_⟩
          rw [hbehind, encodeChars_cons, List.length_append]
          omega
  · rintro ⟨rest, rfl, rfl⟩
    refine runes_of_encoded (Int.natCast_nonneg _) ?_
    rw [bytesFrom_boundary, encodeChars_append]
    exact List.prefix_append ..

end Scannerless.Source
