import Scannerless.Fault

/-!
# Spans

A half-open range of byte offsets. That it starts inside the source's numbering and does not end
before it starts is part of the type.
-/
namespace Scannerless

/-- The bytes from `start` up to but not including `stop`. -/
structure Span where
  start : Int
  stop : Int
  start_nonneg : 0 ≤ start
  start_le_stop : start ≤ stop
  deriving DecidableEq

namespace Span

/-- The span between two offsets, or the fault that refuses it; the start is looked at first. -/
def between (start stop : Int) : Except Fault Span :=
  if hstart : 0 ≤ start then
    if hstop : start ≤ stop then .ok ⟨start, stop, hstart, hstop⟩
    else .error (.reversedSpan start stop)
  else .error (.negativeSpanStart start)

def length (span : Span) : Int :=
  span.stop - span.start

theorem length_nonneg (span : Span) : 0 ≤ span.length := by
  have := span.start_le_stop
  unfold length
  omega

theorem between_eq_ok_iff {start stop : Int} {span : Span} :
    between start stop = .ok span ↔ span.start = start ∧ span.stop = stop := by
  obtain ⟨s, t, hs, ht⟩ := span
  by_cases hstart : 0 ≤ start
  · by_cases hstop : start ≤ stop
    · simp [between, hstart, hstop, eq_comm]
    · simp [between, hstart, hstop]
      omega
  · simp [between, hstart]
    omega

end Span

end Scannerless
