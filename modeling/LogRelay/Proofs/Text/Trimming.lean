import LogRelay.Text.Blank
import Mathlib.Data.List.TakeWhile

/-!
# Texts without the blanks around them

Taking blanks off both ends of a text leaves the one core that has none at its own ends, so doing it
twice changes nothing.
-/

namespace LogRelay.Text

/-- The text is the core with blanks around it, and the core has no blank at its ends. -/
structure Trims (s core : List Char) : Prop where
  around : ∃ before after, s = before ++ core ++ after ∧
    (∀ c ∈ before, isBlank c = true) ∧ ∀ c ∈ after, isBlank c = true
  head : ∀ c ∈ core.head?, isBlank c = false
  last : ∀ c ∈ core.getLast?, isBlank c = false

variable {s core : List Char}

theorem dropWhile_append_eq {before rest : List Char} (hbefore : ∀ c ∈ before, isBlank c = true)
    (hrest : ∀ c ∈ rest.head?, isBlank c = false) : (before ++ rest).dropWhile isBlank = rest := by
  rw [List.dropWhile_append_of_pos hbefore]
  cases rest with
  | nil => rfl
  | cons c rest => rw [List.dropWhile_cons_of_neg (Bool.eq_false_iff.mp (hrest c rfl))]

theorem Trims.trimChars_eq (h : Trims s core) : trimChars s = core := by
  obtain ⟨⟨before, after, rfl, hbefore, hafter⟩, hhead, hlast⟩ := h
  cases core with
  | nil =>
      have hblank : ∀ c ∈ before ++ [] ++ after, isBlank c = true := by
        intro c hc
        rw [List.append_nil] at hc
        exact (List.mem_append.mp hc).elim (hbefore c) (hafter c)
      rw [trimChars, List.dropWhile_eq_nil_iff.mpr hblank]
      rfl
  | cons c cs =>
      have hhead' : ∀ d ∈ (c :: cs ++ after).head?, isBlank d = false := hhead
      have hlast' : ∀ d ∈ (c :: cs).reverse.head?, isBlank d = false := by
        rwa [List.head?_reverse]
      have hafter' : ∀ d ∈ after.reverse, isBlank d = true := fun d hd =>
        hafter d (List.mem_reverse.mp hd)
      rw [trimChars, List.append_assoc, dropWhile_append_eq hbefore hhead', List.reverse_append,
        dropWhile_append_eq hafter' hlast', List.reverse_reverse]

theorem isBlank_of_mem_head?_dropWhile {c : Char} (h : c ∈ (s.dropWhile isBlank).head?) :
    isBlank c = false := by
  have hnot := List.head?_dropWhile_not isBlank s
  rw [Option.mem_def.mp h] at hnot
  exact hnot

theorem trims_trimChars (s : List Char) : Trims s (trimChars s) := by
  let rest := s.dropWhile isBlank
  have hrest : rest = trimChars s ++ (rest.reverse.takeWhile isBlank).reverse := by
    rw [trimChars, ← List.reverse_append, List.takeWhile_append_dropWhile, List.reverse_reverse]
  refine ⟨⟨s.takeWhile isBlank, (rest.reverse.takeWhile isBlank).reverse, ?_, ?_, ?_⟩, ?_, ?_⟩
  · rw [List.append_assoc, ← hrest, List.takeWhile_append_dropWhile]
  · exact fun c hc => List.mem_takeWhile_imp hc
  · exact fun c hc => List.mem_takeWhile_imp (List.mem_reverse.mp hc)
  · intro c hc
    apply isBlank_of_mem_head?_dropWhile (s := s)
    change c ∈ rest.head?
    rw [hrest, List.head?_append, Option.mem_def.mp hc]
    rfl
  · intro c hc
    rw [trimChars, List.getLast?_reverse] at hc
    exact isBlank_of_mem_head?_dropWhile hc

theorem trims_iff : Trims s core ↔ trimChars s = core :=
  ⟨Trims.trimChars_eq, fun h => h ▸ trims_trimChars s⟩

theorem trimChars_trimChars (s : List Char) : trimChars (trimChars s) = trimChars s := by
  obtain ⟨-, hhead, hlast⟩ := trims_trimChars s
  refine Trims.trimChars_eq ⟨⟨[], [], ?_, nofun, nofun⟩, hhead, hlast⟩
  rw [List.nil_append, List.append_nil]

end LogRelay.Text
