import Tickle.ListText

/-! # Elements that braces can carry

Reading a braced element counts an inner brace only if it opens behind a blank, and the outer brace
closes in front of the first blank at which no inner one is open. An element is brace-safe if the
scan between its outer braces ends where it began and does not close the outer brace on the way.

Balanced braces are not enough: a group that stands first in an element is not counted, so its
closing brace ends the element if a blank follows. In particular the text of a list of two or more
elements is never brace-safe. -/

namespace Tickle.ListText

open Tickle.Text

/-- Inner braces open at the end of an element, if the outer brace is not closed before. The scan
starts behind the character `before` with `opened` inner braces open. -/
def openedAfter (opened : Nat) (before : Char) : List Char → Option Nat
  | [] => some opened
  | c :: rest =>
    if c = '}' && (0 < opened || rest.head?.any isBlank) then
      match opened with
      | 0 => none
      | opened + 1 => openedAfter opened c rest
    else if c = '{' && isBlank before then openedAfter (opened + 1) c rest
    else openedAfter opened c rest

/-- An element that is read back from between its braces. -/
def BraceSafe (element : String) : Prop := openedAfter 0 '{' element.toList = some 0

instance (element : String) : Decidable (BraceSafe element) := inferInstanceAs (Decidable (_ = _))

/-- No closing brace stands before its opening one, and every opening one has its closing one. -/
structure Balanced (element : String) : Prop where
  closed_le : ∀ n, (element.toList.take n).count '}' ≤ (element.toList.take n).count '{'
  total : element.toList.count '}' = element.toList.count '{'

instance (element : String) : Decidable (Balanced element) :=
  decidable_of_iff
    ((∀ n ≤ element.toList.length,
        (element.toList.take n).count '}' ≤ (element.toList.take n).count '{') ∧
      element.toList.count '}' = element.toList.count '{')
    ⟨fun h => ⟨fun n => by
        rcases Nat.le_total n element.toList.length with hn | hn
        · exact h.1 n hn
        · rw [List.take_of_length_le hn]
          exact Nat.le_of_eq h.2, h.2⟩,
      fun h => ⟨fun n _ => h.closed_le n, h.total⟩⟩

theorem openedAfter_close {opened : Nat} {before before' : Char} {rest : List Char} :
    openedAfter opened before ('}' :: rest) = openedAfter opened before' ('}' :: rest) := by
  simp [openedAfter]

/-- A closing brace behind an element does not change how the element is scanned. -/
theorem openedAfter_append (element rest : List Char) (opened : Nat) (before : Char) :
    openedAfter opened before (element ++ '}' :: rest) =
      (openedAfter opened before element).bind fun k => openedAfter k before ('}' :: rest) := by
  induction element generalizing opened before with
  | nil => rfl
  | cons c element ih =>
    have hnext : (element ++ '}' :: rest).head?.any isBlank = element.head?.any isBlank := by
      cases element with
      | nil => rfl
      | cons d element => rfl
    have hclose : ∀ o, (openedAfter o c element).bind (fun k => openedAfter k c ('}' :: rest)) =
        (openedAfter o c element).bind fun k => openedAfter k before ('}' :: rest) := by
      intro o
      exact congrArg _ (funext fun k => openedAfter_close)
    simp only [List.cons_append, openedAfter, hnext]
    split
    · cases opened with
      | zero => rfl
      | succ opened => exact (ih opened c).trans (hclose opened)
    · split
      · exact (ih (opened + 1) c).trans (hclose (opened + 1))
      · exact (ih opened c).trans (hclose opened)

/-- If no end of the text opens more than it closes, the scan leaves no more open than there was
over and above what the text opens. -/
theorem openedAfter_le {element : List Char} {opened : Nat} {before : Char} {k : Nat}
    (hend : ∀ back, back <:+ element → back.count '{' ≤ back.count '}')
    (h : openedAfter opened before element = some k) :
    k = 0 ∨ k + element.count '}' ≤ opened + element.count '{' := by
  induction element generalizing opened before with
  | nil =>
    cases h
    exact .inr (Nat.le_refl _)
  | cons c rest ih =>
    have hrest := hend rest (List.suffix_cons c rest)
    have hback : ∀ back, back <:+ rest → back.count '{' ≤ back.count '}' :=
      fun back hb => hend back (hb.trans (List.suffix_cons c rest))
    simp only [openedAfter] at h
    split at h
    · rename_i hc
      obtain ⟨rfl, -⟩ : c = '}' ∧ _ := by simpa using hc
      cases opened with
      | zero => cases h
      | succ opened =>
        rcases ih hback h with hk | hk
        · exact .inl hk
        · right; simp; omega
    · rename_i hc
      split at h
      · rename_i ho
        obtain ⟨rfl, -⟩ : c = '{' ∧ _ := by simpa using ho
        rcases ih hback h with hk | hk
        · exact .inl hk
        · right; simp; omega
      · rcases ih hback h with hk | hk
        · exact .inl hk
        · by_cases hcl : c = '}'
          · subst hcl
            have ho : opened = 0 := by simp at hc; omega
            left; omega
          · right
            have : (c :: rest).count '}' = rest.count '}' := List.count_cons_of_ne hcl
            have : rest.count '{' ≤ (c :: rest).count '{' := List.count_le_count_cons
            omega

/-- No end of a balanced element opens more than it closes. -/
theorem Balanced.count_le_of_suffix {element : String} (h : Balanced element) {back : List Char}
    (hback : back <:+ element.toList) : back.count '{' ≤ back.count '}' := by
  obtain ⟨front, hf⟩ := hback
  have hc := h.closed_le front.length
  have ht := h.total
  rw [← hf, List.take_left] at hc
  rw [← hf, List.count_append, List.count_append] at ht
  omega

/-- The scan of a balanced element closes all inner braces that it opens. -/
theorem Balanced.openedAfter_eq {element : String} (h : Balanced element) {k : Nat}
    (hk : openedAfter 0 '{' element.toList = some k) : k = 0 := by
  rcases openedAfter_le (fun back => h.count_le_of_suffix) hk with hz | hle
  · exact hz
  · have := h.total
    omega

end Tickle.ListText
