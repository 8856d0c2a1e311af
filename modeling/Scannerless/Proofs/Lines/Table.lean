import Mathlib.Data.List.GetD
import Scannerless.Position.LineTable

/-!
# What a line table holds

The table lists the start of the source and the offset behind every newline, in ascending order. So
the search for an offset comes to the last line that starts at it or before it, and the number of
that line counts the newlines in front of the offset.
-/
namespace Scannerless

/-- The line that `m` lies on starts at `s`: at the start of the bytes or behind a newline, with no
newline from there up to `m`. -/
structure LineStart (bytes : List UInt8) (m s : Nat) : Prop where
  le : s ≤ m
  opens : s = 0 ∨ bytes[s - 1]? = some newline
  unbroken : ∀ i, s ≤ i → i < m → bytes[i]? ≠ some newline

theorem LineStart.unique {bytes : List UInt8} {m s t : Nat} (hs : LineStart bytes m s)
    (ht : LineStart bytes m t) : s = t := by
  -- A start behind another one follows a newline that breaks the other one's line.
  have hnot : ∀ {s t : Nat}, LineStart bytes m s → LineStart bytes m t → ¬ s < t := by
    intro s t hs ht hlt
    have hle := ht.le
    rcases ht.opens with hzero | hnewline
    · omega
    · exact hs.unbroken (t - 1) (by omega) (by omega) hnewline
  have hst := hnot hs ht
  have hts := hnot ht hs
  omega

namespace LineTable

/-- The offsets behind the newlines in `bytes`, the first of which stands at `offset`. -/
def startsBehind : (offset : Nat) → (bytes : List UInt8) → List Nat
  | _, [] => []
  | offset, b :: rest =>
    if b = newline then (offset + 1) :: startsBehind (offset + 1) rest
    else startsBehind (offset + 1) rest

theorem startsBehind_append {front : List UInt8} (h : newline ∉ front) (offset : Nat)
    (rest : List UInt8) :
    startsBehind offset (front ++ rest) = startsBehind (offset + front.length) rest := by
  induction front generalizing offset with
  | nil => rfl
  | cons b front ih =>
    obtain ⟨hb, hfront⟩ := not_or.mp (mt List.mem_cons.mpr h)
    rw [List.cons_append, startsBehind, if_neg (Ne.symm hb), ih hfront, List.length_cons,
      Nat.add_right_comm, Nat.add_assoc]

theorem startsBehind_of_not_mem {bytes : List UInt8} (h : newline ∉ bytes) (offset : Nat) :
    startsBehind offset bytes = [] := by
  have hall := startsBehind_append h offset []
  rwa [List.append_nil] at hall

/-- The first newline has no other in front of it. -/
theorem exists_front_of_idxOf? {bytes : List UInt8} {i : Nat} (h : bytes.idxOf? newline = some i) :
    ∃ front, newline ∉ front ∧ bytes = front ++ newline :: bytes.drop (i + 1) ∧
      i = front.length := by
  obtain ⟨hlt, hnewline, hfirst⟩ := List.idxOf?_eq_some_iff.mp h
  refine ⟨bytes.take i, fun hmem => ?_, ?_, (List.length_take_of_le (Nat.le_of_lt hlt)).symm⟩
  · obtain ⟨j, hj, hbyte⟩ := List.mem_take_iff_getElem.mp hmem
    exact hfirst j (by omega) hbyte
  · rw [← hnewline, ← List.drop_eq_getElem_cons hlt, List.take_append_drop]

/-- One search after the other finds all newlines, if there are as many of them as bytes. -/
theorem toList_addStarts {steps : Nat} {bytes : List UInt8} (hsteps : bytes.length ≤ steps)
    (offset : Nat) (starts : Array Nat) :
    (addStarts steps offset bytes starts).toList = starts.toList ++ startsBehind offset bytes := by
  induction steps generalizing offset bytes starts with
  | zero =>
    obtain rfl : bytes = [] := List.length_eq_zero_iff.mp (Nat.le_zero.mp hsteps)
    rw [addStarts, startsBehind, List.append_nil]
  | succ steps ih =>
    rw [addStarts]
    cases hnext : bytes.idxOf? newline with
    | none => rw [startsBehind_of_not_mem (List.idxOf?_eq_none_iff.mp hnext), List.append_nil]
    | some i =>
      obtain ⟨front, hfront, hcut, rfl⟩ := exists_front_of_idxOf? hnext
      have hrest : (bytes.drop (front.length + 1)).length ≤ steps := by
        rw [List.length_drop]
        omega
      have hbehind : startsBehind offset bytes =
          (offset + front.length + 1) ::
            startsBehind (offset + front.length + 1) (bytes.drop (front.length + 1)) := by
        rw [hcut, startsBehind_append hfront, startsBehind, if_pos rfl, ← hcut]
      simp only
      rw [ih hrest, hbehind, Array.toList_push, List.append_assoc, List.singleton_append]

theorem mem_startsBehind_iff {offset s : Nat} {bytes : List UInt8} :
    s ∈ startsBehind offset bytes ↔ ∃ i, bytes[i]? = some newline ∧ s = offset + i + 1 := by
  induction bytes generalizing offset with
  | nil => simp [startsBehind]
  | cons b rest ih =>
    -- The newlines of the rest stand one place further on.
    have hrest : s ∈ startsBehind (offset + 1) rest ↔
        ∃ i, (b :: rest)[i + 1]? = some newline ∧ s = offset + (i + 1) + 1 := by
      simp only [ih, List.getElem?_cons_succ]
      constructor <;> rintro ⟨i, hi, rfl⟩ <;> exact ⟨i, hi, by omega⟩
    have hfirst : (∃ i, (b :: rest)[i]? = some newline ∧ s = offset + i + 1) ↔
        (b = newline ∧ s = offset + 1) ∨ s ∈ startsBehind (offset + 1) rest := by
      rw [hrest]
      constructor
      · rintro ⟨i, hi, hs⟩
        cases i with
        | zero => exact .inl ⟨Option.some.inj hi, hs⟩
        | succ i => exact .inr ⟨i, hi, hs⟩
      · rintro (⟨rfl, hs⟩ | ⟨i, hi, hs⟩)
        · exact ⟨0, rfl, hs⟩
        · exact ⟨i + 1, hi, hs⟩
    rw [hfirst, startsBehind]
    by_cases hb : b = newline <;> simp [hb]

theorem pairwise_startsBehind (offset : Nat) (bytes : List UInt8) :
    (startsBehind offset bytes).Pairwise (· < ·) := by
  induction bytes generalizing offset with
  | nil => exact .nil
  | cons b rest ih =>
    rw [startsBehind]
    split
    · refine .cons (fun s hs => ?_) (ih (offset + 1))
      obtain ⟨i, _, rfl⟩ := mem_startsBehind_iff.mp hs
      omega
    · exact ih (offset + 1)

/-- As many starts lie at `m` or before it as newlines lie before it. -/
theorem countP_startsBehind (offset m : Nat) (bytes : List UInt8) :
    (startsBehind offset bytes).countP (· ≤ m) = (bytes.take (m - offset)).count newline := by
  induction bytes generalizing offset with
  | nil => simp [startsBehind]
  | cons b rest ih =>
    by_cases hm : offset < m
    · obtain ⟨more, hmore⟩ : ∃ more, m - offset = more + 1 := ⟨m - offset - 1, by omega⟩
      have hrest := ih (offset + 1)
      rw [show m - (offset + 1) = more by omega] at hrest
      rw [hmore, List.take_succ_cons, startsBehind]
      by_cases hb : b = newline
      · rw [if_pos hb, List.countP_cons_of_pos (by simp only [decide_eq_true_eq]; omega), hrest, hb,
          List.count_cons_self]
      · rw [if_neg hb, hrest, List.count_cons_of_ne hb]
    · -- Behind `m` there is no newline before it, and every start lies further on.
      have hnone : (startsBehind offset (b :: rest)).countP (· ≤ m) = 0 := by
        refine List.countP_eq_zero.mpr fun s hs => ?_
        obtain ⟨i, _, rfl⟩ := mem_startsBehind_iff.mp hs
        simp only [decide_eq_true_eq]
        omega
      rw [hnone, show m - offset = 0 by omega, List.take_zero, List.count_nil]

theorem starts_ofBytes (bytes : List UInt8) :
    (ofBytes bytes).starts.toList = 0 :: startsBehind 0 bytes :=
  toList_addStarts (Nat.le_refl _) 0 #[0]

theorem mem_starts_ofBytes_iff {bytes : List UInt8} {s : Nat} :
    s ∈ (ofBytes bytes).starts.toList ↔ s = 0 ∨ ∃ i, bytes[i]? = some newline ∧ s = i + 1 := by
  simp [starts_ofBytes, mem_startsBehind_iff]

theorem pairwise_starts_ofBytes (bytes : List UInt8) :
    (ofBytes bytes).starts.toList.Pairwise (· < ·) := by
  rw [starts_ofBytes]
  refine .cons (fun s hs => ?_) (pairwise_startsBehind 0 bytes)
  obtain ⟨i, _, rfl⟩ := mem_startsBehind_iff.mp hs
  omega

theorem countP_starts_ofBytes (bytes : List UInt8) (m : Nat) :
    (ofBytes bytes).starts.toList.countP (· ≤ m) = (bytes.take m).count newline + 1 := by
  rw [starts_ofBytes, List.countP_cons_of_pos (by simp), countP_startsBehind, Nat.sub_zero]

/-! The search. -/

/-- `k` parts the places whose start lies at the offset or before it from those whose start lies
above. -/
structure Parts (starts : List Nat) (offset k : Nat) : Prop where
  le_length : k ≤ starts.length
  below : ∀ i, i < k → starts.getD i 0 ≤ offset
  above : ∀ i, k ≤ i → i < starts.length → offset < starts.getD i 0

/-- Ascending starts are parted by how many of them do not lie above the offset. -/
theorem parts_countP {starts : List Nat} (h : starts.Pairwise (· < ·)) (offset : Nat) :
    Parts starts offset (starts.countP (· ≤ offset)) := by
  induction h with
  | nil => exact ⟨Nat.le_refl 0, nofun, nofun⟩
  | @cons start starts hstart _ ih =>
    obtain ⟨hlength, hbelow, habove⟩ := ih
    by_cases hle : start ≤ offset
    · rw [List.countP_cons_of_pos (by simpa using hle)]
      refine ⟨Nat.succ_le_succ hlength, fun i hi => ?_, fun i hi hlt => ?_⟩
      · cases i with
        | zero => exact hle
        | succ i => exact hbelow i (by omega)
      · obtain ⟨i, rfl⟩ : ∃ j, i = j + 1 := ⟨i - 1, by omega⟩
        exact habove i (by omega) (Nat.lt_of_succ_lt_succ hlt)
    · -- The first start lies above, so all of them do.
      have hnone : (start :: starts).countP (· ≤ offset) = 0 := by
        refine List.countP_eq_zero.mpr
          (List.forall_mem_cons.mpr ⟨by simpa using hle, fun s hs => ?_⟩)
        have hlater := hstart s hs
        simp only [decide_eq_true_eq]
        omega
      rw [hnone]
      refine ⟨Nat.zero_le _, nofun, fun i _ hlt => ?_⟩
      cases i with
      | zero => exact Nat.lt_of_not_le hle
      | succ i =>
        have hi : i < starts.length := Nat.lt_of_succ_lt_succ hlt
        have hlater := hstart starts[i] (List.getElem_mem hi)
        rw [List.getD_cons_succ, List.getD_eq_getElem _ _ hi]
        omega

theorem getD_eq_getD_toList (starts : Array Nat) (i : Nat) :
    starts.getD i 0 = starts.toList.getD i 0 := by
  rw [Array.getD_eq_getD_getElem?, List.getD_eq_getElem?_getD, Array.getElem?_toList]

/-- The search keeps the parting place between its ends, and they meet there. -/
theorem searchAbove_eq {starts : Array Nat} {offset k : Nat} (h : Parts starts.toList offset k)
    {steps low high : Nat} (hlow : low ≤ k) (hhigh : k ≤ high) (hsize : high ≤ starts.size)
    (hsteps : high - low ≤ steps) : searchAbove starts offset steps low high = k := by
  induction steps generalizing low high with
  | zero =>
    rw [searchAbove]
    omega
  | succ steps ih =>
    rw [searchAbove]
    by_cases hlt : low < high
    · simp only [if_pos hlt, getD_eq_getD_toList]
      split
      · rename_i hmiddle
        have hk : k ≤ (low + high) / 2 := Nat.le_of_not_lt fun hnot =>
          Nat.not_le_of_lt hmiddle (h.below _ hnot)
        exact ih hlow hk (by omega) (by omega)
      · rename_i hmiddle
        have hin : (low + high) / 2 < starts.toList.length := by
          rw [Array.length_toList]
          omega
        have hk : (low + high) / 2 < k := Nat.lt_of_not_le fun hnot => hmiddle (h.above _ hnot hin)
        exact ih hk hhigh hsize (by omega)
    · rw [if_neg hlt]
      omega

theorem clamp_ofBytes (bytes : List UInt8) (o : Int) :
    (ofBytes bytes).clamp o = min o.toNat bytes.length := by
  simp only [clamp, ofBytes]
  omega

/-- The last start that does not lie above `m` is the start of the line of `m`. -/
theorem lineStart_of_parts {bytes : List UInt8} {m k : Nat}
    (h : Parts (ofBytes bytes).starts.toList m (k + 1)) :
    LineStart bytes m ((ofBytes bytes).starts.toList.getD k 0) := by
  have hk : k < (ofBytes bytes).starts.toList.length := h.le_length
  have hsorted := List.pairwise_iff_getElem.mp (pairwise_starts_ofBytes bytes)
  refine ⟨h.below k (Nat.lt_succ_self k), ?_, fun i hle hlt hi => ?_⟩
  · rw [List.getD_eq_getElem _ _ hk]
    rcases mem_starts_ofBytes_iff.mp (List.getElem_mem hk) with hzero | ⟨i, hi, hstart⟩
    · exact .inl hzero
    · rw [hstart, Nat.add_sub_cancel]
      exact .inr hi
  · -- A newline in between would begin a later line that does not lie above `m` either.
    obtain ⟨j, hj, hstart⟩ := List.getElem_of_mem (mem_starts_ofBytes_iff.mpr (.inr ⟨i, hi, rfl⟩))
    rw [List.getD_eq_getElem _ _ hk] at hle
    rcases Nat.lt_or_ge k j with hlater | hearlier
    · have habove := h.above j hlater hj
      rw [List.getD_eq_getElem _ _ hj] at habove
      omega
    · rcases Nat.lt_or_eq_of_le hearlier with hlt | rfl
      · have hless := hsorted j k hj hk hlt
        omega
      · omega

/-- The table finds the line on which an offset lies, with the number of newlines in front of it. -/
theorem position_ofBytes (bytes : List UInt8) (o : Int) :
    ∃ s, LineStart bytes (min o.toNat bytes.length) s ∧
      (ofBytes bytes).position o =
        ⟨(bytes.take (min o.toNat bytes.length)).count newline + 1,
          min o.toNat bytes.length - s + 1⟩ := by
  have hparts := parts_countP (pairwise_starts_ofBytes bytes) (min o.toNat bytes.length)
  rw [countP_starts_ofBytes] at hparts
  refine ⟨_, lineStart_of_parts hparts, ?_⟩
  have hlength : _ ≤ (ofBytes bytes).starts.size := hparts.le_length
  have hsearch := searchAbove_eq hparts (Nat.zero_le _) hlength (Nat.le_refl _) (Nat.le_refl _)
  rw [Nat.sub_zero] at hsearch
  simp only [position, clamp_ofBytes, count]
  rw [hsearch, Nat.add_sub_cancel, getD_eq_getD_toList]

end LineTable

end Scannerless
