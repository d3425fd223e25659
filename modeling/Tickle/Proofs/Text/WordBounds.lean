import Tickle.Proofs.Text.Runs
import Tickle.Text.WordBounds

/-! # Words divide a text

The bounds of a word are found by going back and forth from an offset inside it. Wherever in the
word that starts, it ends at the same bounds: they are those of the one maximal run of name
characters around the offset, and maximal runs that meet are equal. -/

namespace Tickle.Text

/-- Name characters stand at all offsets from `first` on and before `last`. -/
def IsRun (cs : List Char) (first last : Nat) : Prop :=
  ∀ k, first ≤ k → k < last → inWord cs k = true

/-- A run of name characters that no longer run contains. -/
structure IsMaximalRun (cs : List Char) (first last : Nat) : Prop where
  run : IsRun cs first last
  maximal : ∀ a b, a ≤ first → last ≤ b → IsRun cs a b → a = first ∧ b = last

variable {cs : List Char} {i j : Nat}

/-! ## Runs that meet -/

/-- Runs with an offset in common make up a run. -/
theorem IsRun.union {a b a' b' : Nat} (h : IsRun cs a b) (h' : IsRun cs a' b')
    (hi : a ≤ i ∧ i < b) (hi' : a' ≤ i ∧ i < b') : IsRun cs (min a a') (max b b') := by
  intro k hmin hmax
  have hside : (a ≤ k ∧ k < b) ∨ (a' ≤ k ∧ k < b') := by omega
  rcases hside with ⟨hle, hlt⟩ | ⟨hle, hlt⟩
  · exact h k hle hlt
  · exact h' k hle hlt

/-- Maximal runs with an offset in common are equal. -/
theorem IsMaximalRun.eq_of_common {a b a' b' : Nat} (h : IsMaximalRun cs a b)
    (h' : IsMaximalRun cs a' b') (hi : a ≤ i ∧ i < b) (hi' : a' ≤ i ∧ i < b') :
    a = a' ∧ b = b' := by
  have hunion := h.run.union h'.run hi hi'
  obtain ⟨hmin, hmax⟩ := h.maximal _ _ (Nat.min_le_left a a') (Nat.le_max_left b b') hunion
  obtain ⟨hmin', hmax'⟩ := h'.maximal _ _ (Nat.min_le_right a a') (Nat.le_max_right b b') hunion
  exact ⟨hmin.symm.trans hmin', hmax.symm.trans hmax'⟩

/-- A run cannot be prolonged if there is no name character on either side of it. -/
theorem IsRun.isMaximalRun {first last : Nat} (h : IsRun cs first last) (hlt : first < last)
    (hfront : ∀ k, k + 1 = first → inWord cs k = false) (hback : inWord cs last = false) :
    IsMaximalRun cs first last := by
  refine ⟨h, fun a b ha hb hrun => ⟨?_, ?_⟩⟩
  · cases first with
    | zero => exact Nat.le_zero.1 ha
    | succ k =>
      rcases Nat.lt_or_ge k a with hka | hak
      · exact Nat.le_antisymm ha hka
      · have hword := hrun k hak (by omega)
        rw [hfront k rfl] at hword
        cases hword
  · rcases Nat.lt_or_ge last b with hlast | hge
    · have hword := hrun last (by omega) hlast
      rw [hback] at hword
      cases hword
    · exact Nat.le_antisymm hge hb

/-! ## One character back or forth -/

theorem lt_length_of_inWord (h : inWord cs i = true) : i < cs.length := by
  refine Nat.lt_of_not_le fun hle => ?_
  rw [inWord, List.getElem?_eq_none hle] at h
  cases h

theorem inWord_eq (hi : i < cs.length) : inWord cs i = isNameChar cs[i] := by
  rw [inWord, List.getElem?_eq_getElem hi, Option.any_some]

theorem isRun_single (h : inWord cs i = true) : IsRun cs i (i + 1) := fun k hle hlt => by
  rwa [Nat.le_antisymm (Nat.le_of_lt_succ hlt) hle]

theorem wordStart_of_not_inWord (h : inWord cs i = false) : wordStart cs i = i := by
  rw [wordStart, h, if_neg Bool.false_ne_true]

theorem wordEnd_of_not_inWord (h : inWord cs i = false) : wordEnd cs i = i + 1 := by
  rw [wordEnd, h, if_neg Bool.false_ne_true]

theorem wordStart_zero (cs : List Char) : wordStart cs 0 = 0 := by
  rw [wordStart, Nat.zero_sub, ite_self]

/-- The start of a word is that of the character in front, if that is in the word as well. -/
theorem wordStart_succ (h : inWord cs (i + 1) = true) :
    wordStart cs (i + 1) = if inWord cs i then wordStart cs i else i + 1 := by
  have hi : i < cs.length := Nat.lt_of_succ_lt (lt_length_of_inWord h)
  have htake : (cs.take (i + 1)).reverse = cs[i] :: (cs.take i).reverse := by
    rw [List.take_succ_eq_append_getElem hi, List.reverse_append]
    rfl
  rw [wordStart, if_pos h, htake]
  split
  · rename_i hword
    rw [wordStart, if_pos hword, List.takeWhile_cons_of_pos (by rwa [inWord_eq hi] at hword),
      List.length_cons, Nat.add_sub_add_right]
  · rename_i hother
    rw [List.takeWhile_cons_of_neg (by rwa [inWord_eq hi] at hother)]
    rfl

/-- The end of a word is that of the character behind, if that is in the word as well. -/
theorem wordEnd_of_inWord (h : inWord cs i = true) :
    wordEnd cs i = if inWord cs (i + 1) then wordEnd cs (i + 1) else i + 1 := by
  have hi : i < cs.length := lt_length_of_inWord h
  rw [wordEnd, if_pos h, List.drop_eq_getElem_cons hi,
    List.takeWhile_cons_of_pos (by rwa [inWord_eq hi] at h), List.length_cons]
  split
  · rename_i hword
    rw [wordEnd, if_pos hword]
    omega
  · rename_i hother
    have hstop : ∀ c ∈ (cs.drop (i + 1)).head?, isNameChar c = false := by
      intro c hc
      rw [List.head?_drop, Option.mem_def] at hc
      rwa [inWord, hc, Option.any_some, Bool.not_eq_true] at hother
    have hnone : ([] ++ cs.drop (i + 1)).takeWhile isNameChar = [] := takeWhile_of_run nofun hstop
    rw [List.nil_append] at hnone
    rw [hnone]
    rfl

/-! ## Back to the start and forth to the end -/

/-- Going back runs over name characters only and stops behind another character. -/
theorem wordStart_spec (h : inWord cs i = true) :
    IsRun cs (wordStart cs i) (i + 1) ∧ ∀ k, k + 1 = wordStart cs i → inWord cs k = false := by
  induction i with
  | zero =>
    rw [wordStart_zero]
    exact ⟨isRun_single h, nofun⟩
  | succ i ih =>
    rw [wordStart_succ h]
    split
    · rename_i hword
      obtain ⟨hrun, hfront⟩ := ih hword
      refine ⟨fun k hk hlt => ?_, hfront⟩
      rcases Nat.lt_succ_iff_lt_or_eq.1 hlt with hlt | rfl
      · exact hrun k hk hlt
      · exact h
    · rename_i hother
      refine ⟨isRun_single h, fun k hk => ?_⟩
      cases hk
      exact Bool.eq_false_iff.2 hother

/-- Going forth runs over name characters only and stops at another character or at the end. -/
theorem wordEnd_spec (h : inWord cs i = true) :
    i < wordEnd cs i ∧ IsRun cs i (wordEnd cs i) ∧ inWord cs (wordEnd cs i) = false := by
  -- the induction is on what is left of the text
  induction hleft : cs.length - i generalizing i with
  | zero =>
    have hi := lt_length_of_inWord h
    omega
  | succ left ih =>
    rw [wordEnd_of_inWord h]
    split
    · rename_i hword
      obtain ⟨hlt, hrun, hback⟩ := ih hword (by omega)
      refine ⟨Nat.lt_of_succ_lt hlt, fun k hk hlast => ?_, hback⟩
      rcases Nat.eq_or_lt_of_le hk with rfl | hk
      · exact h
      · exact hrun k hk hlast
    · rename_i hother
      exact ⟨Nat.lt_succ_self i, isRun_single h, Bool.eq_false_iff.2 hother⟩

theorem wordStart_le (cs : List Char) (i : Nat) : wordStart cs i ≤ i := by
  rw [wordStart]
  split <;> omega

/-- The bounds of a word are those of a maximal run. -/
theorem isMaximalRun_wordBounds (h : inWord cs i = true) :
    IsMaximalRun cs (wordStart cs i) (wordEnd cs i) := by
  have hstart := wordStart_le cs i
  obtain ⟨hrun, hfront⟩ := wordStart_spec h
  obtain ⟨hend, hrun', hback⟩ := wordEnd_spec h
  refine IsRun.isMaximalRun (fun k hk hlast => ?_) (by omega) hfront hback
  rcases Nat.lt_or_ge i k with hik | hki
  · exact hrun' k (Nat.le_of_lt hik) hlast
  · exact hrun k hk (Nat.lt_succ_of_le hki)

theorem lt_wordEnd (cs : List Char) (i : Nat) : i < wordEnd cs i := by
  cases h : inWord cs i with
  | true => exact (wordEnd_spec h).1
  | false => rw [wordEnd_of_not_inWord h]; exact Nat.lt_succ_self i

theorem wordEnd_le_length (hi : i < cs.length) : wordEnd cs i ≤ cs.length := by
  rw [wordEnd]
  split
  · have hrun := (List.takeWhile_sublist (p := isNameChar) (l := cs.drop i)).length_le
    rw [List.length_drop] at hrun
    omega
  · exact hi

/-- Offsets in one word have the same word. -/
theorem wordBounds_eq (hstart : wordStart cs i ≤ j) (hend : j < wordEnd cs i) :
    wordStart cs j = wordStart cs i ∧ wordEnd cs j = wordEnd cs i := by
  cases h : inWord cs i with
  | false =>
    rw [wordStart_of_not_inWord h] at hstart
    rw [wordEnd_of_not_inWord h] at hend
    obtain rfl : i = j := Nat.le_antisymm hstart (Nat.le_of_lt_succ hend)
    exact ⟨rfl, rfl⟩
  | true =>
    have hrun := isMaximalRun_wordBounds h
    have hj : inWord cs j = true := hrun.run j hstart hend
    exact (isMaximalRun_wordBounds hj).eq_of_common hrun
      ⟨wordStart_le cs j, lt_wordEnd cs j⟩ ⟨hstart, hend⟩

/-- Words divide a text: every offset lies in its word, which is a single character that is no name
character or a maximal run of name characters, has the same bounds wherever in it they are asked
for, and does not meet any other word. -/
theorem words_divide (cs : List Char) {i : Nat} (hi : i < cs.length) :
    wordStart cs i ≤ i ∧ i < wordEnd cs i ∧ wordEnd cs i ≤ cs.length ∧
    (isNameChar cs[i] = false ∧ wordStart cs i = i ∧ wordEnd cs i = i + 1 ∨
      isNameChar cs[i] = true ∧ IsMaximalRun cs (wordStart cs i) (wordEnd cs i)) ∧
    (∀ j, wordStart cs i ≤ j → j < wordEnd cs i →
      wordStart cs j = wordStart cs i ∧ wordEnd cs j = wordEnd cs i) ∧
    ∀ j, wordStart cs j = wordStart cs i ∧ wordEnd cs j = wordEnd cs i ∨
      wordEnd cs j ≤ wordStart cs i ∨ wordEnd cs i ≤ wordStart cs j := by
  refine ⟨wordStart_le cs i, lt_wordEnd cs i, wordEnd_le_length hi, ?_,
    fun j => wordBounds_eq, fun j => ?_⟩
  · rw [← inWord_eq hi]
    cases h : inWord cs i with
    | false => exact .inl ⟨rfl, wordStart_of_not_inWord h, wordEnd_of_not_inWord h⟩
    | true => exact .inr ⟨rfl, isMaximalRun_wordBounds h⟩
  · by_cases hmeet : max (wordStart cs i) (wordStart cs j) < min (wordEnd cs i) (wordEnd cs j)
    · -- words that meet are both the word of the first offset that they share
      obtain ⟨hstart, hend⟩ := wordBounds_eq (Nat.le_max_left _ (wordStart cs j))
        (Nat.lt_of_lt_of_le hmeet (Nat.min_le_left _ _))
      obtain ⟨hstart', hend'⟩ := wordBounds_eq (Nat.le_max_right (wordStart cs i) _)
        (Nat.lt_of_lt_of_le hmeet (Nat.min_le_right _ _))
      exact .inl ⟨hstart'.symm.trans hstart, hend'.symm.trans hend⟩
    · have hi := wordStart_le cs i
      have hi' := lt_wordEnd cs i
      have hj := wordStart_le cs j
      have hj' := lt_wordEnd cs j
      omega

/-- The last word of a text has the same bounds at its last character. -/
theorem words_divide_at_end :
    let cs := "a.b x_1".toList
    5 < cs.length ∧ IsMaximalRun cs 4 7 ∧ wordStart cs 6 = 4 ∧ wordEnd cs 6 = 7 := by
  intro cs
  have hi : 5 < cs.length := by decide
  have hname : inWord cs 5 = true := by decide
  obtain ⟨-, -, -, hword, hsame, -⟩ := words_divide cs hi
  rcases hword with ⟨hother, -⟩ | ⟨-, hrun⟩
  · rw [← inWord_eq hi, hname] at hother
    cases hother
  · exact ⟨hi, hrun, hsame 6 (by decide) (by decide)⟩

end Tickle.Text
