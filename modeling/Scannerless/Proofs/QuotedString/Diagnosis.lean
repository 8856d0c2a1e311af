import Scannerless.Proofs.QuotedString.Body
import Scannerless.Proofs.Reports

/-!
# What fails is diagnosed

Every source that is not a quoted string from end to end has a diagnosis, and with it the parser of
whole inputs fails. The items are the same however they are read, so the place where they end is the
place where the parser stops.
-/
namespace Scannerless.Grammar.EscapedString

open Scannerless.Parser QuotedString Text.Utf8

variable {c : Cursor} {source : Source} {q ws cs : List Char} {s : String} {i : Int}
  {d : Diagnostic}

theorem atEnd_iff (ho : 0 ≤ c.offset) : c.atEnd = true ↔ (c.source.size : Int) ≤ c.offset := by
  have hread : c.readBytes 1 = (c.source.bytesFrom c.offset).take 1 :=
    Source.read_eq_take ho 1
  rw [Cursor.atEnd, hread, List.isEmpty_iff_length_eq_zero, List.length_take,
    Source.length_bytesFrom]
  omega

/-- A string is there, and it is what follows it that is refused. -/
theorem yields_whole_behind (hc : c.failed = false) (ho : 0 ≤ c.offset) {e : Int}
    (h : c.source.Runes c.offset q e) (hquotes : Quotes q s) (hmore : e < c.source.size) :
    Yields [] (bodyLevels c.source + 8) whole c (c.withError (.expectedEndOfInput e)) := by
  have hle := h.bounds.1
  have hend : ¬ (c.withResult (.text s) e).atEnd = true := by
    rw [atEnd_iff (show 0 ≤ e by omega)]
    exact Int.not_le.mpr hmore
  have hrest : Yields [] 1 atEnd (c.withResult (.text s) e)
      ((c.withResult (.text s) e).withError (.expectedEndOfInput e)) :=
    yields_custom hc (by rw [if_neg hend]; rfl)
  have hrow := Passes.cons (yields_string hc ho h hquotes) hc (.nil _)
  exact yields_map_fails hc (yields_sequence_fails [] hc hrow (hrest.mono (by omega)) rfl false) rfl

theorem yields_whole_fails (hc : c.failed = false) {d : Diagnostic}
    (h : Yields [] (bodyLevels c.source + 6) parser c (c.withError d)) :
    Yields [] (bodyLevels c.source + 8) whole c (c.withError d) :=
  yields_map_fails hc (yields_sequence_fails _ hc (.nil c) h rfl false) rfl

/-- Items that end where no other begins are the longest run: the parser goes through any run of
items, and it stops at one place only. -/
theorem itemsEnd_of_stop (hopen : source.readRune 0 = some ('"', 1)) (h : source.Runes 1 ws i)
    (hitems : Items ws cs) (hstop : ∀ ws' e ch, source.Runes i ws' e → ¬ Item ws' ch) :
    ItemsEnd source i := by
  refine ⟨hopen, ⟨ws, cs, h, hitems⟩, fun vs ds e hvs hds => ?_⟩
  obtain ⟨others, fs, m, hothers, hfs, hstop'⟩ := exists_items source e
  have hbody := yields_body (c := ⟨source, 1, .nothing, none⟩) rfl Int.one_nonneg h hitems hstop
  have hbody' := yields_body (c := ⟨source, 1, .nothing, none⟩) rfl Int.one_nonneg
    (hvs.append hothers) (hds.append hfs) hstop'
  obtain rfl : i = m := congrArg Cursor.offset (hbody.unique hbody')
  have hle := hothers.bounds.1
  omega

theorem yields_of_diagnosis (h : Diagnosis source d) :
    Yields [] (bodyLevels source + 8) whole (.ofSource source)
      ((Cursor.ofSource source).withError d) := by
  have hquote : ∀ {o : Int}, source.readRune o ≠ some ('"', 1) →
      ∀ w, source.readRune o ≠ some ('"', w) :=
    fun hne => readRune_ne (by decide) hne
  cases h with
  | unopened hne =>
    have hstring := yields_string_unopened (c := .ofSource source) rfl (Int.le_refl 0) (hquote hne)
    exact yields_whole_fails rfl (hstring.mono (show 5 ≤ bodyLevels source + 6 by omega))
  | brokenOff hi hne hd =>
    obtain ⟨ws, cs, hbody, hitems⟩ := hi.reached
    exact yields_whole_fails rfl
      (yields_string_brokenOff (c := .ofSource source) rfl hi.opened hbody
      hitems hi.stop (hquote hne) hd)
  | behind hi hclose hmore =>
    obtain ⟨ws, cs, hbody, hitems⟩ := hi.reached
    have hquotes : Quotes ('"' :: (ws ++ ['"'])) (String.ofList cs) :=
      ⟨ws, rfl, by rwa [String.toList_ofList]⟩
    exact yields_whole_behind (c := .ofSource source) rfl (Int.le_refl 0)
      (.cons hi.opened (hbody.append (.single hclose))) hquotes hmore

theorem exists_diagnosis (h : ∀ q s, source.Runes 0 q source.size → ¬ Quotes q s) :
    ∃ d, Diagnosis source d := by
  by_cases hopen : source.readRune 0 = some ('"', 1)
  · obtain ⟨body, cs, i, hbody, hitems, hstop⟩ := exists_items source 1
    have hi := itemsEnd_of_stop hopen hbody hitems hstop
    by_cases hclose : source.readRune i = some ('"', 1)
    · have hquotes : Quotes ('"' :: (body ++ ['"'])) (String.ofList cs) :=
        ⟨body, rfl, by rwa [String.toList_ofList]⟩
      have hruns : source.Runes 0 ('"' :: (body ++ ['"'])) (i + 1) :=
        .cons hopen (hbody.append (.single hclose))
      have hle := (Source.readRune_bounds hclose).2.2
      have hshort : i + 1 ≠ source.size := fun hsize => h _ _ (hsize ▸ hruns) hquotes
      exact ⟨_, .behind hi hclose (by omega)⟩
    · obtain ⟨d, hd⟩ := exists_brokenOff hstop
      exact ⟨d, .brokenOff hi hclose hd⟩
  · exact ⟨_, .unopened hopen⟩

end Scannerless.Grammar.EscapedString
