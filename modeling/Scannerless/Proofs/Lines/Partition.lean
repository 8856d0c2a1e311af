import Scannerless.Proofs.Lines.Positions

/-!
# The lines of a source

The line table cuts a source at its newlines and at nothing else. The main statement says that the
lines with one newline between them are the source again, that every offset lies on the line of its
position, and that positions are ordered as offsets are.
-/
namespace Scannerless

/-- The position stands in front of another: on an earlier line, or on the same line further
left. -/
def Position.Precedes (p q : Position) : Prop :=
  p.line < q.line ∨ p.line = q.line ∧ p.column < q.column

theorem Position.Precedes.asymm {p q : Position} (h : p.Precedes q) : ¬ q.Precedes p := by
  unfold Precedes at *
  omega

/-- The pieces between separators hold no separator. -/
theorem not_mem_of_mem_splitOn {α : Type} [BEq α] [LawfulBEq α] {x : α} {xs piece : List α}
    (h : piece ∈ xs.splitOn x) : x ∉ piece := by
  induction xs generalizing piece with
  | nil =>
    rw [List.splitOn_nil, List.mem_singleton] at h
    rw [h]
    exact List.not_mem_nil
  | cons y ys ih =>
    rw [List.splitOn_cons_eq_if_modifyHead] at h
    split at h
    · rcases List.mem_cons.mp h with rfl | hmem
      · exact List.not_mem_nil
      · exact ih hmem
    · rename_i hy
      obtain ⟨first, others, hcut⟩ := List.exists_cons_of_ne_nil (List.splitOn_ne_nil x ys)
      rw [hcut, List.modifyHead_cons] at h
      rcases List.mem_cons.mp h with rfl | hmem
      · have hfirst := ih (hcut ▸ List.mem_cons_self ..)
        have hne : x ≠ y := fun hxy => hy (beq_iff_eq.mpr hxy.symm)
        exact List.not_mem_cons_of_ne_of_not_mem hne hfirst
      · exact ih (hcut ▸ List.mem_cons_of_mem first hmem)

/-- The bytes of a source cut at its newlines. -/
def Source.lines (source : Source) : List (List UInt8) :=
  source.bytes.toList.splitOn newline

namespace LineTable

variable {bytes : List UInt8} {i m start stop : Nat}

/-- The offsets at which lines end, in front of their newlines, and the end of the bytes. -/
def stops (table : LineTable) : List Nat :=
  table.starts.toList.tail.map (· - 1) ++ [table.size]

/-- From starts to stops the lines are the bytes between newlines. `front` holds whole lines with
their newlines, and `opened` is what is known of the line behind them. -/
theorem zipWith_startsBehind (front opened rest : List UInt8) (hopened : newline ∉ opened) :
    List.zipWith ((front ++ opened ++ rest).extract · ·)
        (front.length :: startsBehind (front ++ opened).length rest)
        ((startsBehind (front ++ opened).length rest).map (· - 1) ++
          [(front ++ opened ++ rest).length]) =
      (opened ++ rest).splitOn newline := by
  induction rest generalizing front opened with
  | nil =>
    rw [startsBehind, List.append_nil, List.append_nil, List.splitOn_eq_singleton hopened]
    simp [List.extract_eq_take_drop]
  | cons b rest ih =>
    rw [startsBehind]
    by_cases hb : b = newline
    · -- The newline ends the open line, and the next one is open with nothing on it.
      have hrest := ih (front ++ opened ++ [b]) [] List.not_mem_nil
      simp only [List.append_assoc, List.append_nil, List.singleton_append,
        List.nil_append] at hrest
      subst hb
      rw [if_pos rfl, List.splitOn_append_cons_self_of_not_mem hopened, ← hrest]
      simp [List.extract_eq_take_drop, Nat.add_assoc]
    · have hnot : newline ∉ opened ++ [b] := by simp [hopened, Ne.symm hb]
      have hrest := ih front (opened ++ [b]) hnot
      rw [if_neg hb]
      simpa [Nat.add_assoc] using hrest

theorem zipWith_starts_stops (bytes : List UInt8) :
    List.zipWith (bytes.extract · ·) (ofBytes bytes).starts.toList (ofBytes bytes).stops =
      bytes.splitOn newline := by
  have h := zipWith_startsBehind [] [] bytes List.not_mem_nil
  rw [stops, starts_ofBytes]
  exact h

theorem length_stops (bytes : List UInt8) :
    (ofBytes bytes).stops.length = (ofBytes bytes).count := by
  rw [count, ← Array.length_toList]
  simp [stops, starts_ofBytes]

/-- There are as many lines in the table as there are between newlines. -/
theorem count_ofBytes (bytes : List UInt8) :
    (ofBytes bytes).count = (bytes.splitOn newline).length := by
  rw [← zipWith_starts_stops, List.length_zipWith, length_stops, Array.length_toList, count,
    Nat.min_self]

/-- The line with `i` lines in front of it stands from `start` up to `stop`, where a newline follows
or the bytes end. -/
structure IsLine (bytes : List UInt8) (i start stop : Nat) : Prop where
  bounds_eq : (ofBytes bytes).bounds (i + 1) = .ok (start, stop)
  getElem?_splitOn : (bytes.splitOn newline)[i]? = some (bytes.extract start stop)
  le : start ≤ stop
  ends : stop = bytes.length ∨ bytes[stop]? = some newline

theorem getElem?_extract (hm : start ≤ m) (hlt : m < stop) :
    (bytes.extract start stop)[m - start]? = bytes[m]? := by
  rw [List.extract_eq_take_drop, List.getElem?_take_of_lt (by omega), List.getElem?_drop,
    Nat.add_sub_cancel' hm]

namespace IsLine

theorem lt_count (h : IsLine bytes i start stop) : i < (ofBytes bytes).count := by
  obtain ⟨hlt, -⟩ := List.getElem?_eq_some_iff.mp h.getElem?_splitOn
  rwa [count_ofBytes]

theorem le_length (h : IsLine bytes i start stop) : stop ≤ bytes.length := by
  rcases h.ends with hend | hnewline
  · exact Nat.le_of_eq hend
  · obtain ⟨hlt, -⟩ := List.getElem?_eq_some_iff.mp hnewline
    exact Nat.le_of_lt hlt

theorem newline_not_mem (h : IsLine bytes i start stop) : newline ∉ bytes.extract start stop :=
  not_mem_of_mem_splitOn (List.mem_of_getElem? h.getElem?_splitOn)

/-- Of the offsets from the start of a line on, its stop is the first that has a newline or no
byte. -/
theorem eq_stop_iff (h : IsLine bytes i start stop) (hstart : start ≤ m) (hstop : m ≤ stop) :
    m = stop ↔ bytes[m]? = none ∨ bytes[m]? = some newline := by
  constructor
  · rintro rfl
    exact h.ends.imp_left fun hend => List.getElem?_eq_none (Nat.le_of_eq hend.symm)
  · intro hends
    refine Nat.le_antisymm hstop (Nat.le_of_not_lt fun hlt => ?_)
    rcases hends with hnone | hnewline
    · have hle := h.le_length
      have hpast := List.getElem?_eq_none_iff.mp hnone
      omega
    · rw [← getElem?_extract hstart hlt] at hnewline
      exact h.newline_not_mem (List.mem_of_getElem? hnewline)

/-- A line has one start. -/
theorem start_unique {start' stop' : Nat} (h : IsLine bytes i start stop)
    (h' : IsLine bytes i start' stop') : start = start' := by
  have hsame := h.bounds_eq.symm.trans h'.bounds_eq
  simp only [Except.ok.injEq, Prod.mk.injEq] at hsame
  omega

end IsLine

theorem getD_mem_starts {table : LineTable} (hi : i < table.count) :
    table.starts.toList.getD i 0 ∈ table.starts.toList := by
  rw [List.getD_eq_getElem _ _ hi]
  exact List.getElem_mem hi

theorem startAt_eq {table : LineTable} (hi : i < table.count) :
    table.startAt i = .ok (table.starts.toList.getD i 0) := by
  have hget : table.starts[i]? = some (table.starts.toList.getD i 0) := by
    rw [← Array.getElem?_toList, List.getD_eq_getElem _ _ hi]
    exact List.getElem?_eq_getElem hi
  rw [startAt, if_neg (by omega), if_neg (by omega), Int.toNat_natCast, hget]

theorem bounds_succ {table : LineTable} (hi : i < table.count) :
    table.bounds (i + 1) = .ok (table.starts.toList.getD i 0,
      if i + 1 < table.count then (table.starts.toList.getD (i + 1) 0 : Int) - 1
      else table.size) := by
  have hstart := startAt_eq hi
  by_cases hlast : i + 1 < table.count
  · have hnext := startAt_eq hlast
    have hlast' : (i : Int) + 1 < table.count := by omega
    rw [Int.natCast_succ] at hnext
    simp [bounds, hstart, hlast, hlast', hnext, Bind.bind, Except.bind, pure, Except.pure]
  · have hlast' : ¬ (i : Int) + 1 < table.count := by omega
    simp [bounds, hstart, hlast, hlast', Bind.bind, Except.bind, pure, Except.pure]

theorem stops_getD_of_lt {table : LineTable} (hi : i + 1 < table.count) :
    table.stops.getD i 0 = table.starts.toList.getD (i + 1) 0 - 1 := by
  have hlength : i < (table.starts.toList.tail.map (· - 1)).length := by
    rw [List.length_map, List.length_tail, Array.length_toList]
    exact Nat.lt_sub_of_add_lt hi
  rw [stops, List.getD_append _ _ _ _ hlength, List.getD_eq_getElem _ _ hlength, List.getElem_map,
    List.getElem_tail, List.getD_eq_getElem]

theorem stops_getD_of_last {table : LineTable} (hi : i + 1 = table.count) :
    table.stops.getD i 0 = table.size := by
  have hlength : (table.starts.toList.tail.map (· - 1)).length = i := by
    rw [List.length_map, List.length_tail, Array.length_toList]
    exact Nat.sub_eq_of_eq_add hi.symm
  rw [stops, List.getD_append_right _ _ _ _ (Nat.le_of_eq hlength), hlength, Nat.sub_self]
  rfl

theorem getElem?_splitOn (hi : i < (ofBytes bytes).count) :
    (bytes.splitOn newline)[i]? =
      some (bytes.extract ((ofBytes bytes).starts.toList.getD i 0)
        ((ofBytes bytes).stops.getD i 0)) := by
  have hstop : i < (ofBytes bytes).stops.length := by rwa [length_stops]
  rw [← zipWith_starts_stops, List.getElem?_zipWith, List.getElem?_eq_getElem hi,
    List.getElem?_eq_getElem hstop, List.getD_eq_getElem _ _ hi, List.getD_eq_getElem _ _ hstop]

/-- Every index of the table is that of a line. -/
theorem isLine (hi : i < (ofBytes bytes).count) :
    IsLine bytes i ((ofBytes bytes).starts.toList.getD i 0) ((ofBytes bytes).stops.getD i 0) := by
  have hbounds := bounds_succ hi
  by_cases hlast : i + 1 < (ofBytes bytes).count
  · -- The next line starts further on, and right behind a newline.
    have hless : (ofBytes bytes).starts.toList.getD i 0 <
        (ofBytes bytes).starts.toList.getD (i + 1) 0 := by
      rw [List.getD_eq_getElem _ _ hi, List.getD_eq_getElem _ _ hlast]
      exact List.pairwise_iff_getElem.mp (pairwise_starts_ofBytes bytes) i (i + 1) hi hlast
        (Nat.lt_succ_self i)
    have hstop := stops_getD_of_lt hlast
    rcases mem_starts_ofBytes_iff.mp (getD_mem_starts hlast) with hzero | ⟨j, hj, hj'⟩
    · omega
    · rw [hj', Nat.add_sub_cancel] at hstop
      refine ⟨?_, getElem?_splitOn hi, by omega, .inr (by rwa [hstop])⟩
      rw [hbounds, if_pos hlast, hstop, hj', Int.natCast_succ, Int.add_sub_cancel]
  · have hcount : i + 1 = (ofBytes bytes).count := by omega
    have hstop := stops_getD_of_last hcount
    refine ⟨?_, getElem?_splitOn hi, ?_, .inl hstop⟩
    · rw [hbounds, if_neg hlast, hstop]
    · rw [hstop]
      rcases mem_starts_ofBytes_iff.mp (getD_mem_starts hi) with hzero | ⟨j, hj, hj'⟩
      · omega
      · rw [hj']
        obtain ⟨hlt, -⟩ := List.getElem?_eq_some_iff.mp hj
        exact hlt

/-- An offset lies on the line that has as many lines in front of it as newlines, and its column
counts from the start of that line. -/
theorem exists_isLine (bytes : List UInt8) (o : Int) :
    ∃ start stop, IsLine bytes ((bytes.take (min o.toNat bytes.length)).count newline) start stop ∧
      LineStart bytes (min o.toNat bytes.length) start ∧ min o.toNat bytes.length ≤ stop ∧
      (ofBytes bytes).position o =
        ⟨(bytes.take (min o.toNat bytes.length)).count newline + 1,
          min o.toNat bytes.length - start + 1⟩ := by
  obtain ⟨s, hs, hposition⟩ := position_ofBytes bytes o
  have hparts := parts_countP (pairwise_starts_ofBytes bytes) (min o.toNat bytes.length)
  rw [countP_starts_ofBytes] at hparts
  generalize hi : (bytes.take (min o.toNat bytes.length)).count newline = i at *
  have hline := lineStart_of_parts hparts
  refine ⟨_, _, isLine hparts.le_length, hline, ?_, ?_⟩
  · by_cases hlast : i + 1 < (ofBytes bytes).count
    · have habove := hparts.above (i + 1) (Nat.le_refl _) hlast
      rw [stops_getD_of_lt hlast]
      exact Nat.le_sub_one_of_lt habove
    · have hlength : i + 1 ≤ (ofBytes bytes).count := hparts.le_length
      rw [stops_getD_of_last (by omega)]
      exact Nat.min_le_right _ _
  · rw [hposition, hs.unique hline]

theorem position_precedes {o o' : Nat} (h : o < o') (ho' : o' ≤ bytes.length) :
    ((ofBytes bytes).position o).Precedes ((ofBytes bytes).position o') := by
  obtain ⟨start, stop, hline, hstart, -, hposition⟩ := exists_isLine bytes o
  obtain ⟨start', stop', hline', hstart', -, hposition'⟩ := exists_isLine bytes o'
  rw [Int.toNat_natCast, Nat.min_eq_left (by omega)] at hline hstart hposition
  rw [Int.toNat_natCast, Nat.min_eq_left ho'] at hline' hstart' hposition'
  have hle : (bytes.take o).count newline ≤ (bytes.take o').count newline :=
    (List.take_prefix_take_left (Nat.le_of_lt h)).sublist.count_le newline
  rw [hposition, hposition']
  rcases Nat.lt_or_eq_of_le hle with hless | hsame
  · exact .inl (Nat.succ_lt_succ hless)
  · rw [hsame] at hline ⊢
    obtain rfl := hline.start_unique hline'
    have hle := hstart.le
    exact .inr ⟨rfl, Nat.succ_lt_succ (by omega)⟩

theorem position_precedes_iff {o o' : Nat} (ho : o ≤ bytes.length) (ho' : o' ≤ bytes.length) :
    ((ofBytes bytes).position o).Precedes ((ofBytes bytes).position o') ↔ o < o' := by
  refine ⟨fun h => Nat.lt_of_not_le fun hle => ?_, fun h => position_precedes h ho'⟩
  rcases Nat.lt_or_eq_of_le hle with hless | rfl
  · exact h.asymm (position_precedes hless ho)
  · exact h.asymm h

end LineTable

/-- The line table cuts a source at its newlines: its lines hold none, and with one between them
they are the source again. An offset lies between the bounds of the line of its position, as far
from the start as its column says. So no two offsets have one position, and positions are ordered as
offsets are. -/
theorem line_table_partitions (source : Source) :
    (∃ lines : List (List UInt8), lines.length = source.lineTable.count ∧
      (∀ (i : Nat) line, lines[i]? = some line → newline ∉ line ∧
        ∃ start stop : Nat, source.lineTable.bounds (i + 1) = .ok (start, stop) ∧
          start ≤ stop ∧ stop ≤ source.size ∧ line = source.bytes.toList.extract start stop) ∧
      [newline].intercalate lines = source.bytes.toList) ∧
    (∀ o : Nat, o ≤ source.size → ∃ start stop : Nat,
      source.lineTable.bounds (source.lineTable.position o).line = .ok (start, stop) ∧
      1 ≤ (source.lineTable.position o).line ∧
      (source.lineTable.position o).line ≤ source.lineTable.count ∧
      start ≤ o ∧ o ≤ stop ∧ o + 1 = start + (source.lineTable.position o).column) ∧
    ∀ o o' : Nat, o ≤ source.size → o' ≤ source.size →
      (o < o' ↔ (source.lineTable.position o).Precedes (source.lineTable.position o')) ∧
      (source.lineTable.position o = source.lineTable.position o' → o = o') := by
  have hsize : source.size = source.bytes.toList.length := rfl
  rw [Source.lineTable_eq, hsize]
  refine ⟨⟨source.bytes.toList.splitOn newline, (LineTable.count_ofBytes _).symm,
    fun i line hi => ?_, List.intercalate_splitOn newline⟩,
    fun o ho => ?_, fun o o' ho ho' => ⟨?_, fun hsame => ?_⟩⟩
  · have hcount : i < (LineTable.ofBytes source.bytes.toList).count := by
      rw [LineTable.count_ofBytes]
      exact (List.getElem?_eq_some_iff.mp hi).1
    have hline := LineTable.isLine hcount
    rw [hline.getElem?_splitOn] at hi
    obtain rfl := Option.some.inj hi
    exact ⟨hline.newline_not_mem, _, _, hline.bounds_eq, hline.le, hline.le_length, rfl⟩
  · obtain ⟨start, stop, hline, hstart, hstop, hposition⟩ :=
      LineTable.exists_isLine source.bytes.toList o
    rw [Int.toNat_natCast, Nat.min_eq_left ho] at hline hstart hstop hposition
    rw [hposition]
    have hle := hstart.le
    refine ⟨start, stop, hline.bounds_eq, Nat.succ_pos _, hline.lt_count, hle, hstop, ?_⟩
    show o + 1 = start + (o - start + 1)
    omega
  · exact (LineTable.position_precedes_iff ho ho').symm
  · -- Neither position stands in front of the other.
    have hnot : ∀ p : Position, ¬ p.Precedes p := fun p h => h.asymm h
    have hle : ¬ o < o' := fun hless => hnot _ (hsame ▸ LineTable.position_precedes hless ho')
    have hge : ¬ o' < o := fun hless => hnot _ (hsame ▸ LineTable.position_precedes hless ho)
    omega

/-- A letter, an empty line, and a last line that is empty because a newline stands at the end. -/
theorem line_table_partitions_empty_lines :
    (∃ start stop : Nat,
      (Source.ofBytes #[0x61, 0x0A, 0x0A, 0x62, 0x0A]).lineTable.bounds 4 = .ok (start, stop) ∧
      start ≤ 5 ∧ 5 ≤ stop ∧ 5 + 1 = start + 1) ∧
    ((Source.ofBytes #[0x61, 0x0A, 0x0A, 0x62, 0x0A]).lineTable.position 1).Precedes
      ((Source.ofBytes #[0x61, 0x0A, 0x0A, 0x62, 0x0A]).lineTable.position 2) := by
  obtain ⟨-, hline, hordered⟩ := line_table_partitions (.ofBytes #[0x61, 0x0A, 0x0A, 0x62, 0x0A])
  obtain ⟨start, stop, hbounds, -, -, hstart, hstop, hcolumn⟩ := hline 5 (by decide)
  exact ⟨⟨start, stop, hbounds, hstart, hstop, hcolumn⟩,
    (hordered 1 2 (by decide) (by decide)).1.mp (by decide)⟩

end Scannerless
