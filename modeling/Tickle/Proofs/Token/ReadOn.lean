import Tickle.Token.Script
import Mathlib.Data.List.Infix
import Mathlib.Data.List.TakeWhile
import Mathlib.Tactic.SplitIfs

/-! # Readers in a text that goes on

Where a reader stops in front of the end of a text, it does not notice what follows the text. Plain
text without a backslash, a region that is closed and a name that is closed are read as before if
another line follows. -/

namespace Tickle

namespace Reader

open Tickle.Text

variable {cs : List Char} (more : List Char)

theorem takeWhile_append_stop (p : Char → Bool) (stop : Char) (h : p stop = false)
    (cs : List Char) : (cs ++ stop :: more).takeWhile p = cs.takeWhile p := by
  induction cs with
  | nil => simp [h]
  | cons c rest ih => simp only [List.cons_append, List.takeWhile_cons, ih]

theorem dropWhile_append_stop (p : Char → Bool) (stop : Char) (h : p stop = false)
    (cs : List Char) : (cs ++ stop :: more).dropWhile p = cs.dropWhile p ++ stop :: more := by
  induction cs with
  | nil => simp [h]
  | cons c rest ih =>
    simp only [List.cons_append, List.dropWhile_cons, ih]
    split <;> rfl

theorem isBlank_newline : isBlank '\n' = true := by decide

theorem isNameChar_newline : isNameChar '\n' = false := by decide +kernel

theorem startsName_append_newline (c : Char) (rest : List Char) :
    startsName (c :: (rest ++ '\n' :: more)) = startsName (c :: rest) := by
  by_cases hc : c = '$'
  · subst hc
    cases rest with
    | nil => simp [startsName, isNameChar_newline]
    | cons d rest => rfl
  · simp [startsName, hc]

theorem atContinuation_of_ne {c : Char} (hc : c ≠ '\\') (rest : List Char) :
    atContinuation (c :: rest) = false := by
  simp [atContinuation, hc]

theorem skipContinuations_of_ne {c : Char} (hc : c ≠ '\\') (rest : List Char) :
    skipContinuations (c :: rest) = c :: rest := by
  rw [skipContinuations, atContinuation_of_ne hc]
  rfl

/-- What was read, and then `more` after what is left. -/
def followedBy (read : List Char × List Char) : List Char × List Char := (read.1, read.2 ++ more)

theorem readPlain_cons_of_ne {stop : Char → Bool} {c : Char} (hc : c ≠ '\\') (rest : List Char) :
    readPlain stop (c :: rest) = if stop c || startsName (c :: rest) then ([], c :: rest)
      else keep c (readPlain stop rest) := by
  rw [readPlain_cons, atContinuation_of_ne hc]
  simp [hc]

/-- Plain text without a backslash ends with its line. -/
theorem readPlain_append_newline {stop : Char → Bool} (hstop : stop '\n' = true)
    (h : '\\' ∉ cs) :
    readPlain stop (cs ++ '\n' :: more) = followedBy ('\n' :: more) (readPlain stop cs) := by
  induction cs with
  | nil =>
    rw [List.nil_append, readPlain_cons_of_ne (by decide), hstop]
    simp [followedBy, readPlain_nil]
  | cons c rest ih =>
    have hc : c ≠ '\\' := (List.ne_of_not_mem_cons h).symm
    rw [List.cons_append, readPlain_cons_of_ne hc, readPlain_cons_of_ne hc,
      startsName_append_newline, ih (List.not_mem_of_not_mem_cons h)]
    split <;> rfl

/-! ## Regions that are closed -/

theorem readBracketed_append_more {opened braces : Nat} (hescape : '\\' ∉ cs)
    (h : (readBracketed opened braces cs).2 ≠ []) :
    readBracketed opened braces (cs ++ more) =
      followedBy more (readBracketed opened braces cs) := by
  induction cs generalizing opened braces with
  | nil => exact absurd rfl h
  | cons c rest ih =>
    have hc : c ≠ '\\' := (List.ne_of_not_mem_cons hescape).symm
    have hrest : '\\' ∉ rest := List.not_mem_of_not_mem_cons hescape
    rw [List.cons_append]
    simp only [readBracketed, hc, false_implies, implies_true] at h ⊢
    split_ifs at h ⊢
    · exact congrArg (keep c) (ih hrest h)
    · exact congrArg (keep c) (ih hrest h)
    · exact congrArg (keep c) (ih hrest h)
    · rfl
    · exact congrArg (keep c) (ih hrest h)
    · exact congrArg (keep c) (ih hrest h)

theorem readBraced_append_more {eliding : Bool} {opened : Nat} (hescape : '\\' ∉ cs)
    (h : (readBraced eliding opened cs).2 ≠ []) :
    readBraced eliding opened (cs ++ more) = followedBy more (readBraced eliding opened cs) := by
  induction cs generalizing eliding opened with
  | nil => exact absurd rfl h
  | cons c rest ih =>
    have hc : c ≠ '\\' := (List.ne_of_not_mem_cons hescape).symm
    have hrest : '\\' ∉ rest := List.not_mem_of_not_mem_cons hescape
    rw [List.cons_append]
    simp only [readBraced, hc, false_implies, implies_true] at h ⊢
    split_ifs at h ⊢
    · exact ih hrest h
    · exact congrArg (keep c) (ih hrest h)
    · rfl
    · exact congrArg (keep c) (ih hrest h)
    · exact congrArg (keep c) (ih hrest h)

theorem readQuoted_append_more {opened : Nat} (hescape : '\\' ∉ cs)
    (h : (readQuoted opened cs).2 ≠ []) :
    readQuoted opened (cs ++ more) = followedBy more (readQuoted opened cs) := by
  induction cs generalizing opened with
  | nil => exact absurd rfl h
  | cons c rest ih =>
    have hc : c ≠ '\\' := (List.ne_of_not_mem_cons hescape).symm
    have hrest : '\\' ∉ rest := List.not_mem_of_not_mem_cons hescape
    rw [List.cons_append]
    simp only [readQuoted, hc, false_implies, implies_true] at h ⊢
    split_ifs at h ⊢
    · exact congrArg (keep c) (ih hrest h)
    · exact congrArg (keep c) (ih hrest h)
    · rfl
    · exact congrArg (keep c) (ih hrest h)

/-! ## References that are closed -/

/-- A name behind its dollar sign does not run on to the end of the text: a brace in front of it is
closed, and so is the parenthesis of an index. -/
def closesName : List Char → Bool
  | '\x7b' :: rest => rest.contains '\x7d'
  | cs =>
    match cs.dropWhile isNameChar with
    | '(' :: rest => rest.inits.any fun index => index.count ')' = index.count '(' + 1
    | _ => true

theorem readIndex_append_more {depth : Nat} (hdepth : 1 ≤ depth)
    (h : ∃ index, index <+: cs ∧ index.count ')' = index.count '(' + depth) :
    readIndex depth (cs ++ more) = followedBy more (readIndex depth cs) := by
  obtain ⟨index, hindex, hcount⟩ := h
  induction cs generalizing depth index with
  | nil =>
    rw [List.prefix_nil.1 hindex, List.count_nil, List.count_nil] at hcount
    omega
  | cons c rest ih =>
    cases index with
    | nil =>
      rw [List.count_nil, List.count_nil] at hcount
      omega
    | cons d index =>
      obtain ⟨rfl, htail⟩ := List.cons_prefix_cons.1 hindex
      rw [List.cons_append]
      simp only [readIndex]
      split_ifs with hopen hclose hlast
      · subst hopen
        rw [List.count_cons_self, List.count_cons_of_ne (by decide)] at hcount
        exact congrArg (keep '(') (ih (by omega) index htail (by omega))
      · rfl
      · subst hclose
        rw [List.count_cons_self, List.count_cons_of_ne (by decide)] at hcount
        exact congrArg (keep ')') (ih (by omega) index htail (by omega))
      · rw [List.count_cons_of_ne hopen, List.count_cons_of_ne hclose] at hcount
        exact congrArg (keep d) (ih hdepth index htail hcount)

theorem readName_braced_append {rest : List Char} (h : '\x7d' ∈ rest) :
    readName ('\x7b' :: rest ++ more) = followedBy more (readName ('\x7b' :: rest)) := by
  obtain ⟨name, after, rfl⟩ := List.append_of_mem h
  have htake := fun more => takeWhile_append_stop more (· ≠ '\x7d') '\x7d' (by decide) name
  have hdrop := fun more => dropWhile_append_stop more (· ≠ '\x7d') '\x7d' (by decide) name
  simp only [readName, followedBy, List.cons_append, List.append_assoc, htake, hdrop]
  cases name.dropWhile (· ≠ '\x7d') <;> simp

/-- A closed name ends with its line. -/
theorem readName_append_newline (h : closesName cs = true) :
    readName (cs ++ '\n' :: more) = followedBy ('\n' :: more) (readName cs) := by
  by_cases hbrace : ∃ rest, cs = '\x7b' :: rest
  · obtain ⟨rest, rfl⟩ := hbrace
    exact readName_braced_append _ (List.contains_iff_mem.1 h)
  · have hcs : ∀ rest, cs = '\x7b' :: rest → False := fun rest heq => hbrace ⟨rest, heq⟩
    have hmore : ∀ rest, cs ++ '\n' :: more = '\x7b' :: rest → False := by
      cases cs with
      | nil => simp
      | cons c rest =>
        rintro rest' heq
        obtain ⟨rfl, -⟩ := List.cons.inj heq
        exact hcs rest rfl
    rw [closesName] at h
    rw [readName, readName, takeWhile_append_stop more isNameChar _ isNameChar_newline,
      dropWhile_append_stop more isNameChar _ isNameChar_newline]
    cases hdrop : cs.dropWhile isNameChar with
    | nil => rfl
    | cons c rest =>
      by_cases hc : c = '('
      · subst hc
        simp only [hdrop, List.any_eq_true, List.mem_inits, decide_eq_true_eq] at h
        simp only [List.cons_append, readIndex, if_true, readIndex_append_more _ (Nat.le_refl 1) h]
        rfl
      · simp [hc, followedBy]
    · exact hcs
    · exact hmore
    · exact hcs

end Reader

end Tickle
