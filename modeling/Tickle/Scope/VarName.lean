/-!
Names of variables. A name that ends in a parenthesis and has an opening one before it names an
element of an array: its index runs from the last opening parenthesis to the end.
-/

namespace Tickle

/-- A variable: a scalar or an element of an array. -/
inductive VarName where
  | scalar (name : String)
  | element (array index : String)
  deriving Repr, DecidableEq

namespace VarName

def read (name : String) : VarName :=
  match name.toList.reverse with
  | ')' :: rest =>
    match rest.dropWhile (· ≠ '(') with
    | [] => .scalar name
    | _ :: array =>
      .element (String.ofList array.reverse) (String.ofList (rest.takeWhile (· ≠ '(')).reverse)
  | _ => .scalar name

def text : VarName → String
  | scalar name => name
  | element array index => array ++ "(" ++ index ++ ")"

/-- Reading loses nothing. -/
theorem text_read (name : String) : (read name).text = name := by
  unfold read
  split
  · rename_i rest hr
    split
    · rfl
    · rename_i c array hd
      have hc : c = '(' := by
        have h := List.head?_dropWhile_not (· ≠ '(') rest
        rw [hd] at h
        simpa using h
      have hs := rest.takeWhile_append_dropWhile (p := (· ≠ '('))
      rw [hd, hc] at hs
      have hrev := congrArg List.reverse hs
      have hn : name.toList = rest.reverse ++ [')'] := by
        rw [← List.reverse_cons, ← hr, List.reverse_reverse]
      apply String.toList_injective
      rw [hn, ← hrev]
      simp [text]
  · rfl

theorem read_injective {a b : String} (h : read a = read b) : a = b := by
  rw [← text_read a, ← text_read b, h]

end VarName

end Tickle
