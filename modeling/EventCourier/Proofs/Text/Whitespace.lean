import EventCourier.Text.Whitespace
import Mathlib.Data.List.TakeWhile

/-!
# What trimming leaves

A trimmed text is what stands alone in the text, between white space, and neither begins nor ends
with white space itself.  There is only one such part, so trimming finds it wherever it is told
what stands there.
-/

namespace EventCourier
namespace Text

/-- The characters are all of the text but for white space around them. -/
def StandsAlone (chars : List Char) (s : String) : Prop :=
  ∃ before after, (∀ c ∈ before, isWhiteSpace c = true) ∧ (∀ c ∈ after, isWhiteSpace c = true) ∧
    s.toList = before ++ chars ++ after

/-- No white space at either end. -/
structure Bare (chars : List Char) : Prop where
  first : ∀ c ∈ chars.head?, isWhiteSpace c = false
  last : ∀ c ∈ chars.getLast?, isWhiteSpace c = false

theorem Bare.of_forall
    {chars : List Char} (hchars : ∀ c ∈ chars, isWhiteSpace c = false) : Bare chars := by
  constructor
  · intro c hc
    exact hchars c (List.mem_of_mem_head? hc)
  · intro c hc
    exact hchars c (List.mem_of_mem_getLast? hc)

theorem trimStart_of_head?
    {chars : List Char} (hfirst : ∀ c ∈ chars.head?, isWhiteSpace c = false) :
    trimStart chars = chars := by
  cases chars with
  | nil => rfl
  | cons c rest => simp [trimStart, hfirst c rfl]

theorem trimStart_append
    {before : List Char} (hbefore : ∀ c ∈ before, isWhiteSpace c = true) (chars : List Char) :
    trimStart (before ++ chars) = trimStart chars :=
  List.dropWhile_append_of_pos hbefore

theorem trimStart_eq_iff {chars rest : List Char} :
    trimStart chars = rest ↔
      (∀ c ∈ rest.head?, isWhiteSpace c = false) ∧
        ∃ before, (∀ c ∈ before, isWhiteSpace c = true) ∧ chars = before ++ rest := by
  constructor
  · intro h
    subst h
    constructor
    · intro c hc
      have hhead := List.head?_dropWhile_not isWhiteSpace chars
      rw [trimStart] at hc
      rw [Option.mem_def.mp hc] at hhead
      simpa using hhead
    · refine ⟨chars.takeWhile isWhiteSpace, ?_, ?_⟩
      · intro c hc
        exact List.mem_takeWhile_imp hc
      · exact List.takeWhile_append_dropWhile.symm
  · intro h
    rcases h with ⟨hfirst, before, hbefore, rfl⟩
    rw [trimStart_append hbefore, trimStart_of_head? hfirst]

theorem standsAlone_nil_iff {s : String} : StandsAlone [] s ↔ isBlank s = true := by
  rw [isBlank, List.all_eq_true]
  constructor
  · intro h
    rcases h with ⟨before, after, hbefore, hafter, hs⟩
    rw [hs, List.append_nil]
    intro c hc
    exact (List.mem_append.mp hc).elim (hbefore c) (hafter c)
  · intro hblank
    exact ⟨s.toList, [], hblank, nofun, by simp⟩

theorem toList_trim (s : String) :
    (trim s).toList = (trimStart (trimStart s.toList).reverse).reverse := by
  rw [trim, String.toList_ofList]

theorem toList_trim_eq_iff {s : String} {chars : List Char} :
    (trim s).toList = chars ↔ Bare chars ∧ StandsAlone chars s := by
  rw [toList_trim, List.reverse_eq_iff, trimStart_eq_iff]
  constructor
  · intro h
    rcases h with ⟨hlast, after, hafter, hrest⟩
    rw [List.reverse_eq_iff, List.reverse_append, List.reverse_reverse, trimStart_eq_iff] at hrest
    rcases hrest with ⟨hfirst, before, hbefore, hs⟩
    constructor
    · constructor
      · intro c hc
        apply hfirst c
        rw [List.head?_append, Option.mem_def.mp hc]
        rfl
      · intro c hc
        rw [← List.head?_reverse] at hc
        exact hlast c hc
    · refine ⟨before, after.reverse, hbefore, ?_, ?_⟩
      · intro c hc
        exact hafter c (List.mem_reverse.mp hc)
      · rw [hs, List.append_assoc]
  · intro h
    rcases h with ⟨hbare, before, after, hbefore, hafter, hs⟩
    constructor
    · intro c hc
      rw [List.head?_reverse] at hc
      exact hbare.last c hc
    · cases chars with
      | nil =>
          -- All of it is white space, and no end of it is left over.
          have hblank := standsAlone_nil_iff.mp ⟨before, after, hbefore, hafter, hs⟩
          refine ⟨[], nofun, ?_⟩
          rw [trimStart_eq_nil_iff.mpr hblank]
          rfl
      | cons c rest =>
          have hfirst : ∀ d ∈ (c :: rest ++ after).head?, isWhiteSpace d = false := hbare.first
          refine ⟨after.reverse, ?_, ?_⟩
          · intro d hd
            exact hafter d (List.mem_reverse.mp hd)
          · rw [hs, List.append_assoc, trimStart_append hbefore, trimStart_of_head? hfirst,
              List.reverse_append]

theorem isBlank_trim (s : String) : isBlank (trim s) = isBlank s := by
  rw [Bool.eq_iff_iff, ← @standsAlone_nil_iff s, isBlank, List.all_eq_true]
  constructor
  · intro hblank
    have htrim := (@toList_trim_eq_iff s _).mp rfl
    cases hchars : (trim s).toList with
    | nil =>
        rw [hchars] at htrim
        exact htrim.2
    | cons c rest =>
        rw [hchars] at hblank htrim
        have hwhite := hblank c List.mem_cons_self
        rw [htrim.1.first c rfl] at hwhite
        cases hwhite
  · intro halone
    rw [toList_trim_eq_iff.mpr ⟨.of_forall (List.forall_mem_nil _), halone⟩]
    exact List.forall_mem_nil _

end Text
end EventCourier
