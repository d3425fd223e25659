import Mathlib.Data.List.DropRight
import Mathlib.Data.List.TakeWhile

/-! # Runs of characters

A run of characters of a class is read up to the first character outside it, from either end of a
text. -/

namespace Tickle.Text

variable {p : Char → Bool}

section

variable {run rest : List Char} (hrun : ∀ c ∈ run, p c = true)
  (hrest : ∀ c ∈ rest.head?, p c = false)
include hrun hrest

theorem takeWhile_of_run : (run ++ rest).takeWhile p = run := by
  rw [List.takeWhile_append_of_pos hrun]
  cases rest with
  | nil => rw [List.takeWhile_nil, List.append_nil]
  | cons c rest => rw [List.takeWhile_cons_of_neg (by simp [hrest c rfl]), List.append_nil]

theorem dropWhile_of_run : (run ++ rest).dropWhile p = rest := by
  rw [List.dropWhile_append_of_pos hrun]
  cases rest with
  | nil => rfl
  | cons c rest => exact List.dropWhile_cons_of_neg (by simp [hrest c rfl])

end

theorem eq_false_of_mem_head?_dropWhile {cs : List Char} :
    ∀ c ∈ (cs.dropWhile p).head?, p c = false := by
  intro c hc
  have hstop := List.head?_dropWhile_not p cs
  rwa [Option.mem_def.1 hc] at hstop

theorem length_rtakeWhile_le (cs : List Char) : (cs.rtakeWhile p).length ≤ cs.length :=
  (List.rtakeWhile_suffix p cs).length_le

/-- The run at the end of a text reaches one character further only if it is the whole text. -/
theorem length_rtakeWhile_cons (c : Char) (cs : List Char) :
    ((c :: cs).rtakeWhile p).length =
      if p c = true ∧ (cs.rtakeWhile p).length = cs.length then cs.length + 1
      else (cs.rtakeWhile p).length := by
  simp only [List.rtakeWhile, List.reverse_cons, List.length_reverse, List.takeWhile_append]
  split
  · rename_i hwhole
    cases hc : p c <;> simp [hc, hwhole]
  · rename_i hpart
    rw [if_neg fun h => hpart h.2]

/-- A character outside the class ends the run that is read from the end. -/
theorem length_rtakeWhile_append {c : Char} (hc : p c = false) (front rest : List Char) :
    ((front ++ c :: rest).rtakeWhile p).length = (rest.rtakeWhile p).length := by
  have hle := length_rtakeWhile_le (p := p) rest
  induction front with
  | nil => rw [List.nil_append, length_rtakeWhile_cons, if_neg (by simp [hc])]
  | cons d front ih =>
    have hpart : (rest.rtakeWhile p).length ≠ (front ++ c :: rest).length := by
      rw [List.length_append, List.length_cons]
      omega
    rw [List.cons_append, length_rtakeWhile_cons, ih, if_neg fun h => hpart h.2]

end Tickle.Text
