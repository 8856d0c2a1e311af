/-!
# Ranges of scalar values

Character classes are given as lists of closed ranges in ascending order, none touching the next.
Membership stops at the first range that lies above the value asked for, which is right because the
ranges ascend.
-/
namespace Scannerless.Text

/-- Closed ranges of scalar values, first and last value of each, in ascending order. -/
abbrev CodeRanges := List (Nat × Nat)

namespace CodeRanges

/-- Looks a scalar value up, stopping at the first range above it. -/
def memCode (n : Nat) : CodeRanges → Bool
  | [] => false
  | (first, last) :: rest => if n < first then false else n ≤ last || memCode n rest

/-- Holds of the characters whose scalar value lies in one of the ranges. -/
def mem (ranges : CodeRanges) (c : Char) : Bool :=
  memCode c.toNat ranges

/-- Holds of ranges that are not empty, the first from `floor` on and each above the one before. -/
def ascends : (floor : Nat) → CodeRanges → Bool
  | _, [] => true
  | floor, (first, last) :: rest => floor ≤ first && first ≤ last && ascends (last + 1) rest

theorem floor_le_of_mem {floor : Nat} {ranges : CodeRanges} (h : ascends floor ranges = true) :
    ∀ range ∈ ranges, floor ≤ range.1 := by
  induction ranges generalizing floor with
  | nil => simp
  | cons head rest ih =>
    obtain ⟨first, last⟩ := head
    simp only [ascends, Bool.and_eq_true, decide_eq_true_eq] at h
    intro range hmem
    rcases List.mem_cons.mp hmem with rfl | hmem
    · exact h.1.1
    · have := ih h.2 range hmem
      omega

/-- In ascending ranges the early stop loses nothing: membership is membership in some range. -/
theorem memCode_eq_true_iff {floor : Nat} {ranges : CodeRanges}
    (h : ascends floor ranges = true) (n : Nat) :
    memCode n ranges = true ↔ ∃ range ∈ ranges, range.1 ≤ n ∧ n ≤ range.2 := by
  induction ranges generalizing floor with
  | nil => simp [memCode]
  | cons head rest ih =>
    obtain ⟨first, last⟩ := head
    simp only [ascends, Bool.and_eq_true, decide_eq_true_eq] at h
    by_cases hlow : n < first
    · have hnone : ¬ ∃ range ∈ (first, last) :: rest, range.1 ≤ n ∧ n ≤ range.2 := by
        rintro ⟨range, hmem, hfirst, _⟩
        rcases List.mem_cons.mp hmem with rfl | hmem
        · exact absurd hfirst (by simpa using hlow)
        · have := floor_le_of_mem h.2 range hmem
          omega
      simp only [memCode, hlow, if_true, Bool.false_eq_true, false_iff]
      exact hnone
    · simp [memCode, hlow, ih h.2, Nat.le_of_not_lt hlow]

end CodeRanges

end Scannerless.Text
