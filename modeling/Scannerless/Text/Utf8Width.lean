import Scannerless.Text.Utf8

/-!
# Widths of scanned runes

A scan takes at least one byte and no more bytes than there are. This is what makes decoding advance
and keeps it inside the bytes it was given.
-/
namespace Scannerless.Text.Utf8

theorem scanTail_scalar_width {following bits seen : Nat} {low high : UInt8} {bytes : List UInt8}
    {c : Char} {width : Nat} (h : scanTail bits seen low high following bytes = .scalar c width) :
    width = seen + following ∧ following ≤ bytes.length := by
  induction following generalizing bits seen low high bytes with
  | zero =>
    simp only [scanTail, Scan.scalar.injEq] at h
    exact ⟨h.2.symm, Nat.zero_le _⟩
  | succ following ih =>
    cases bytes with
    | nil => simp [scanTail] at h
    | cons b rest =>
      rw [scanTail] at h
      split at h
      · obtain ⟨hwidth, hlength⟩ := ih h
        rw [List.length_cons]
        omega
      · cases h

theorem scan_scalar_width {bytes : List UInt8} {c : Char} {width : Nat}
    (h : scan bytes = .scalar c width) : 0 < width ∧ width ≤ bytes.length := by
  cases bytes with
  | nil => simp [scan] at h
  | cons b rest =>
    rw [scan] at h
    split at h
    · obtain ⟨-, rfl⟩ := Scan.scalar.injEq _ _ _ _ ▸ h
      simp
    · split at h
      · cases h
      · obtain ⟨hwidth, hlength⟩ := scanTail_scalar_width h
        rw [List.length_cons]
        omega

end Scannerless.Text.Utf8
