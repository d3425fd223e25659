import Tickle.Proofs.ListText.BraceSafe
import Tickle.Proofs.Run.Outcome

/-! # Reading a written list

Writing puts every element in braces. What is read back is the list itself exactly if every element
is brace-safe: an unsafe element is read too short, if a brace inside it closes the group, or too
long, if it leaves a brace open that takes the outer closing one. `llength` and `lindex` find in the
value of `list` what was put in under the same condition. -/

namespace Tickle.ListText

open Tickle.Text

/-! ## Written text -/

/-- What stands behind an element in list text: the other elements in braces, a space in front of
each. -/
def spaced (elements : List String) : List Char :=
  elements.flatMap fun e => ' ' :: '{' :: e.toList ++ ['}']

theorem toList_format_cons (e : String) (es : List String) :
    (format (e :: es)).toList = '{' :: e.toList ++ '}' :: spaced es := by
  induction es generalizing e with
  | nil => simp [format, spaced]
  | cons e' es ih =>
    have h := ih e'
    simp only [format, List.map_cons] at h
    simp only [format, List.map_cons, String.intercalate_cons_cons, String.toList_append, h]
    simp [spaced]

theorem spaced_ends (es : List String) : spaced es = [] ∨ ∃ front, spaced es = front ++ ['}'] := by
  induction es with
  | nil => exact .inl rfl
  | cons e es ih =>
    right
    have hcons : spaced (e :: es) = ' ' :: '{' :: e.toList ++ ['}'] ++ spaced es := by
      simp [spaced]
    rcases ih with hnil | ⟨front, hf⟩
    · exact ⟨' ' :: '{' :: e.toList, by rw [hcons, hnil, List.append_nil]⟩
    · exact ⟨' ' :: '{' :: e.toList ++ ['}'] ++ front, by rw [hcons, hf]; simp⟩

theorem head_spaced (es : List String) : (spaced es).head?.all isBlank = true := by
  cases es <;> rfl

/-- Text between braces has no blank at its ends. -/
theorem trim_braced (front : List Char) :
    trim isBlank ('{' :: (front ++ ['}'])) = '{' :: (front ++ ['}']) := by
  have ho : isBlank '{' = false := by decide
  have hc : isBlank '}' = false := by decide
  have hstart : trimStart isBlank ('{' :: (front ++ ['}'])) = '{' :: (front ++ ['}']) := by
    simp [trimStart, ho]
  rw [trim, hstart, trimEnd, ← List.cons_append, List.reverse_append]
  simp [hc]

theorem trim_format_cons (e : String) (es : List String) :
    trim isBlank (format (e :: es)).toList = '{' :: e.toList ++ '}' :: spaced es := by
  rw [toList_format_cons]
  rcases spaced_ends es with hnil | ⟨front, hf⟩
  · rw [hnil]
    exact trim_braced e.toList
  · rw [hf]
    simpa using trim_braced (e.toList ++ '}' :: front)

/-! ## Reading between braces -/

theorem foldr_extend (front e : List Char) (es : List (List Char)) :
    front.foldr extend (e :: es) = (front ++ e) :: es := by
  induction front with
  | nil => rfl
  | cons c front ih => rw [List.foldr_cons, ih]; rfl

theorem head_append_close (element rest : List Char) :
    (element ++ '}' :: rest).head?.all isBlank = element.head?.any isBlank := by
  cases element <;> rfl

theorem elementsFrom_close (opened : Nat) (before before' : Char) (rest : List Char) :
    elementsFrom isBlank (.group opened before) ('}' :: rest) =
      elementsFrom isBlank (.group opened before') ('}' :: rest) := by
  simp [elementsFrom]

/-- An element whose scan does not close the outer brace is read whole. -/
theorem elementsFrom_group {element rest : List Char} {opened k : Nat} {before : Char}
    (h : openedAfter opened before element = some k) :
    elementsFrom isBlank (.group opened before) (element ++ '}' :: rest) =
      element.foldr extend (elementsFrom isBlank (.group k before) ('}' :: rest)) := by
  induction element generalizing opened before with
  | nil => cases h; rfl
  | cons c element ih =>
    have hread : ∀ {o}, openedAfter o c element = some k →
        extend c (elementsFrom isBlank (.group o c) (element ++ '}' :: rest)) =
          (c :: element).foldr extend (elementsFrom isBlank (.group k before) ('}' :: rest)) := by
      intro o ho
      rw [ih ho, elementsFrom_close k c before, List.foldr_cons]
    simp only [openedAfter] at h
    rw [List.cons_append, elementsFrom.eq_def]
    dsimp only
    rw [head_append_close]
    split at h
    · rename_i hc
      rw [if_pos hc]
      cases opened with
      | zero => cases h
      | succ opened => exact hread h
    · rename_i hc
      rw [if_neg hc]
      split at h
      · rename_i ho
        rw [if_pos ho]
        exact hread h
      · rename_i ho
        rw [if_neg ho]
        exact hread h

/-- An element whose scan closes the outer brace is cut short there. -/
theorem elementsFrom_cut (rest : List Char) {element : List Char} {opened : Nat} {before : Char}
    (h : openedAfter opened before element = none) :
    ∃ front es, elementsFrom isBlank (.group opened before) (element ++ '}' :: rest) = front :: es ∧
      front.length < element.length := by
  induction element generalizing opened before with
  | nil => cases h
  | cons c element ih =>
    have hextend : ∀ {o b}, openedAfter o b element = none → ∃ front es,
        extend c (elementsFrom isBlank (.group o b) (element ++ '}' :: rest)) = front :: es ∧
          front.length < (c :: element).length := by
      intro o b hn
      obtain ⟨front, es, he, hl⟩ := ih hn
      exact ⟨c :: front, es, by rw [he]; rfl, Nat.succ_lt_succ hl⟩
    simp only [openedAfter] at h
    simp only [List.cons_append, elementsFrom, head_append_close]
    split at h
    · rename_i hc
      rw [if_pos hc]
      cases opened with
      | zero =>
        -- the brace closes, and the blank behind it ends the element
        cases element with
        | nil => simp at hc
        | cons d element =>
          have hd : isBlank d = true := by simpa using (Bool.and_eq_true_iff.1 hc).2
          have hne : d ≠ '{' := by rintro rfl; exact absurd hd (by decide)
          refine ⟨[], elementsFrom isBlank .gap (element ++ '}' :: rest), ?_, Nat.zero_lt_succ _⟩
          simp only [List.cons_append, elementsFrom, hne, if_false, hd, if_true]
      | succ opened => exact hextend h
    · rename_i hc
      rw [if_neg hc]
      split at h
      · rename_i ho
        rw [if_pos ho]
        exact hextend h
      · rename_i ho
        rw [if_neg ho]
        exact hextend h

theorem elementsFrom_ne_nil (separates : Char → Bool) (place : Place) (cs : List Char) :
    elementsFrom separates place cs ≠ [] := by
  have hextend : ∀ c es, extend c es ≠ [] := by
    intro c es
    cases es <;> exact List.cons_ne_nil _ _
  fun_induction elementsFrom separates place cs <;>
    first | exact hextend _ _ | exact List.cons_ne_nil _ _ | assumption

/-- A run of separators counts as one. -/
theorem elementsFrom_gap_append {separates : Char → Bool} {gap : List Char}
    (hgap : ∀ c ∈ gap, separates c = true) (cs : List Char) :
    elementsFrom separates .gap (gap ++ cs) = elementsFrom separates .gap cs := by
  induction gap with
  | nil => rfl
  | cons c gap ih =>
    obtain ⟨hc, hgap⟩ := List.forall_mem_cons.1 hgap
    rw [List.cons_append, elementsFrom, if_pos hc, ih hgap]

theorem elements_of_ne_nil (separates : Char → Bool) {cs : List Char} (h : cs ≠ []) :
    elements separates cs = elementsFrom separates .bare cs := by
  cases cs with
  | nil => exact absurd rfl h
  | cons c cs => rfl

/-- A brace left open inside an element takes the outer closing brace into it. -/
theorem elementsFrom_open (rest : List Char) {element : List Char} {k : Nat}
    (h : openedAfter 0 '{' element = some (k + 1)) :
    ∃ e es, elementsFrom isBlank (.group 0 '{') (element ++ '}' :: rest) = e :: es ∧
      element.length < e.length := by
  rw [elementsFrom_group h]
  have hstep : elementsFrom isBlank (.group (k + 1) '{') ('}' :: rest) =
      extend '}' (elementsFrom isBlank (.group k '}') rest) := by
    simp [elementsFrom]
  obtain ⟨e, es, he⟩ := List.exists_cons_of_ne_nil
    (elementsFrom_ne_nil isBlank (.group k '}') rest)
  refine ⟨element ++ '}' :: e, es, ?_, by simp⟩
  rw [hstep, he, extend, foldr_extend]

/-- Behind a brace-safe element reading goes on with the next one. -/
theorem elementsFrom_safe {e : String} (he : BraceSafe e) (es : List String) :
    elementsFrom isBlank (.group 0 '{') (e.toList ++ '}' :: spaced es) =
      e.toList :: (match es with
        | [] => []
        | e' :: es => elementsFrom isBlank (.group 0 '{') (e'.toList ++ '}' :: spaced es)) := by
  rw [elementsFrom_group he]
  have hclose : elementsFrom isBlank (.group 0 '{') ('}' :: spaced es) =
      elementsFrom isBlank .bare (spaced es) := by
    simp [elementsFrom, head_spaced]
  rw [hclose]
  cases es with
  | nil => exact (foldr_extend _ _ _).trans (by rw [List.append_nil])
  | cons e' es =>
    have hblank : isBlank ' ' = true := by decide
    have hbrace : isBlank '{' = false := by decide
    have hgap : elementsFrom isBlank .bare (spaced (e' :: es)) =
        [] :: elementsFrom isBlank (.group 0 '{') (e'.toList ++ '}' :: spaced es) := by
      simp [spaced, elementsFrom, hblank, hbrace]
    rw [hgap, foldr_extend, List.append_nil]

/-- What is read behind the first opening brace is the elements themselves exactly if all of them
are brace-safe. -/
theorem elementsFrom_spaced_iff (e : String) (es : List String) :
    elementsFrom isBlank (.group 0 '{') (e.toList ++ '}' :: spaced es) =
      (e :: es).map String.toList ↔ ∀ v ∈ e :: es, BraceSafe v := by
  have hread : ¬ BraceSafe e → elementsFrom isBlank (.group 0 '{') (e.toList ++ '}' :: spaced es) ≠
      (e :: es).map String.toList := by
    intro hs heq
    cases ho : openedAfter 0 '{' e.toList with
    | none =>
      obtain ⟨front, es', he, hl⟩ := elementsFrom_cut (spaced es) ho
      rw [heq] at he
      exact absurd (congrArg List.length (List.cons.inj he).1) (by omega)
    | some k =>
      cases k with
      | zero => exact hs ho
      | succ k =>
        obtain ⟨e', es', he, hl⟩ := elementsFrom_open (spaced es) ho
        rw [heq] at he
        exact absurd (congrArg List.length (List.cons.inj he).1) (by omega)
  by_cases hs : BraceSafe e
  · rw [elementsFrom_safe hs, List.map_cons, List.cons.injEq, List.forall_mem_cons]
    cases es with
    | nil => simp [hs]
    | cons e' es => simp only [true_and, hs]; exact elementsFrom_spaced_iff e' es
  · exact ⟨fun h => absurd h (hread hs), fun h => absurd (h e List.mem_cons_self) hs⟩

/-- A list is read back as it was written exactly if all its elements are brace-safe. -/
theorem parse_format_iff (elements : List String) :
    parse (format elements) = elements ↔ ∀ e ∈ elements, BraceSafe e := by
  cases elements with
  | nil => simp [format, parse, ListText.elements, trim, trimStart, trimEnd]
  | cons e es =>
    have hread : parse (format (e :: es)) =
        (elementsFrom isBlank (.group 0 '{') (e.toList ++ '}' :: spaced es)).map String.ofList := by
      rw [parse, trim_format_cons]
      rfl
    rw [hread, ← elementsFrom_spaced_iff e es]
    constructor
    · intro h
      rw [← h, List.map_map]
      simp [Function.comp_def]
    · intro h
      rw [h, List.map_map]
      simp [Function.comp_def]

/-- A single character is brace-safe, also a brace or a blank: what stands on both sides of it is a
brace of the outer pair. -/
theorem braceSafe_singleton (c : Char) : BraceSafe c.toString := by
  have hbrace : isBlank '{' = false := by decide
  simp [BraceSafe, Char.toString, openedAfter, hbrace]

/-- The text of a list of balanced elements is brace-safe, so that it can be an element of another
list, only if it has at most one element. -/
theorem braceSafe_format_iff {elements : List String} (h : ∀ e ∈ elements, Balanced e) :
    BraceSafe (format elements) ↔ elements.length ≤ 1 ∧ ∀ e ∈ elements, BraceSafe e := by
  cases elements with
  | nil => simp [BraceSafe, format, openedAfter]
  | cons e es =>
    -- the first brace is not counted, so the scan meets the element as if it stood alone
    have hscan : openedAfter 0 '{' (format (e :: es)).toList =
        (openedAfter 0 '{' e.toList).bind fun k => openedAfter k '{' ('}' :: spaced es) := by
      rw [toList_format_cons, ← openedAfter_append]
      rfl
    have hzero : ∀ k, openedAfter 0 '{' e.toList = some k → k = 0 :=
      fun k => (h e List.mem_cons_self).openedAfter_eq
    rw [BraceSafe, hscan]
    cases ho : openedAfter 0 '{' e.toList with
    | none => simp [BraceSafe, ho]
    | some k =>
      cases hzero k ho
      cases es with
      | nil => simp [BraceSafe, ho, spaced, openedAfter]
      | cons e' es =>
        have hcut : openedAfter 0 '{' ('}' :: spaced (e' :: es)) = none := by
          rfl
        simp [hcut]

end Tickle.ListText

namespace Tickle

open ListText

/-- What the list commands make of balanced values: `list` returns a text that is read back as the
values exactly if they are brace-safe, and then `llength` and `lindex` answer by the values; and the
text can itself be a value of `list` exactly if it has at most one element, brace-safe again. -/
theorem list_commands_of_balanced (env : Env) (node : Node) (run : Run) (values : List String)
    (hb : ∀ v ∈ values, Balanced v) :
    ∃ text, (env.perform .list node values).Returns run ⟨some text, none⟩ run ∧
      (parse text = values ↔ ∀ v ∈ values, BraceSafe v) ∧
      ((∀ v ∈ values, BraceSafe v) →
        (env.perform .llength node [text]).Returns run ⟨some (toString values.length), none⟩ run ∧
        ∀ (i : Nat) (v index digits : String), values[i]? = some v →
          parse index = [digits] → Number.readInt? digits = some (i : Int) →
          (env.perform .lindex node [text, index]).Returns run ⟨some v, none⟩ run) ∧
      (BraceSafe text ↔ values.length ≤ 1 ∧ ∀ v ∈ values, BraceSafe v) := by
  refine ⟨format values, ?_, parse_format_iff values, ?_, braceSafe_format_iff hb⟩
  · simp [Env.perform, RunM.Returns]
  · intro hs
    have hp := (parse_format_iff values).2 hs
    refine ⟨?_, ?_⟩
    · simp [Env.perform, RunM.Returns, hp]
    · intro i v index digits hv hi hd
      have hix : Lists.index node (format values) [index] = .ok v := by
        simp [Lists.index, hi, Lists.element, hd, hp, hv]
      simp only [Env.perform, RunM.Returns, RunM.run_bind, hix]
      rfl

theorem list_commands_of_braced_values :
    (∀ v ∈ ["a {b c}", "{x}", ""], Balanced v) ∧
      ∃ text, parse text = ["a {b c}", "{x}", ""] ∧
        ((Setup.env {} 0 0).perform .lindex ⟨.command, some "lindex", []⟩ [text, "1"]).Returns
          { scopes := {} } ⟨some "{x}", none⟩ { scopes := {} } := by
  have hb : ∀ v ∈ ["a {b c}", "{x}", ""], Balanced v := by decide
  have hs : ∀ v ∈ ["a {b c}", "{x}", ""], BraceSafe v := by decide
  obtain ⟨text, -, hread, hanswer, -⟩ := list_commands_of_balanced (Setup.env {} 0 0)
    ⟨.command, some "lindex", []⟩ { scopes := {} } ["a {b c}", "{x}", ""] hb
  exact ⟨hb, text, hread.2 hs, (hanswer hs).2 1 "{x}" "1" "1" rfl (by decide) (by decide)⟩

/-- Lists are read back as they were written exactly on brace-safe elements. Single characters are
such elements, so the list that `split` makes of a text without separators is read back as the
characters of the text, whatever they are. -/
theorem parse_format_domain :
    (∀ elements : List String,
      parse (format elements) = elements ↔ ∀ e ∈ elements, BraceSafe e) ∧
    ∀ (env : Env) (node : Node) (run : Run) (text : String) (more : List String),
      ∃ list, (env.perform .split node (text :: "" :: more)).Returns run ⟨some list, none⟩ run ∧
        parse list = text.toList.map Char.toString := by
  refine ⟨parse_format_iff, fun env node run text more => ?_⟩
  refine ⟨format (text.toList.map Char.toString), ?_, (parse_format_iff _).2 fun e he => ?_⟩
  · simp [Env.perform, RunM.Returns, Lists.split]
  · obtain ⟨c, -, rfl⟩ := List.mem_map.1 he
    exact braceSafe_singleton c

example : parse (Lists.split "a\x7b \x7d" (some "")) = ["a", "\x7b", " ", "\x7d"] := by decide

/-- A group at the beginning of an element is cut off at the blank behind it, although its braces
are balanced; so is every list of two elements inside a list. -/
theorem parse_format_leading_group :
    (∀ v ∈ ["{a} b", format ["a", "b"]], Balanced v) ∧
      parse (format ["{a} b"]) ≠ ["{a} b"] ∧ (parse (format ["{a} b"])).length = 2 ∧
      parse (format [format ["a", "b"]]) ≠ [format ["a", "b"]] := by
  decide

end Tickle
