import Tickle.Proofs.Run.ElementIndex
import Tickle.Proofs.Tree.ExpressionText

/-! # Values between quotes

The substitutions in an expression are made before it is read, so the values of variables are read
as a part of it. Between quotes they are read as they are: a value without a quote ends where its
quotes do, whatever else it holds, and is compared as text. -/

namespace Tickle

open Tickle.Text

/-! ## The references -/

namespace Reader

/-- Literal text is read up to where plain text ends. -/
theorem readPlain_literal {cs rest : List Char} (hcs : ∀ c ∈ cs, c ∉ ['[', '$', '\\'])
    (hrest : readPlain (· == '[') rest = ([], rest)) :
    readPlain (· == '[') (cs ++ rest) = (cs, rest) := by
  induction cs with
  | nil => exact hrest
  | cons c cs ih =>
    obtain ⟨hc, hcs⟩ := List.forall_mem_cons.1 hcs
    obtain ⟨hbracket, hdollar, hescape⟩ : c ≠ '[' ∧ c ≠ '$' ∧ c ≠ '\\' := by simpa using hc
    rw [List.cons_append, readPlain_cons_of_ne hescape, startsName_of_ne hdollar, ih hcs]
    simp [hbracket, keep]

end Reader

namespace Token.Substitution

open Reader

/-- Literal text in front of a reference, and the reference. -/
theorem exists_tokensIn_literal_reference {c : Char} {cs : List Char}
    (hcs : ∀ d ∈ c :: cs, d ∉ ['[', '$', '\\']) {name : VarName} (hname : name.IsPlain)
    (size : Nat) (rest : List Char) :
    ∃ p₁ p₂ p₃, tokensIn ⟨size, c :: (cs ++ '$' :: (name.text.toList ++ '"' :: rest)), .plain⟩ =
      ⟨.string, some (String.ofList (c :: cs)), p₁⟩ :: ⟨.dollar, some "$", p₂⟩ ::
        ⟨.name, some name.text, p₃⟩ :: tokensIn ⟨size, '"' :: rest, .plain⟩ := by
  obtain ⟨d, ds, hds, hd, hread⟩ := hname.readName (d := '"') (by decide +kernel) rest
  have hstart := startsName_dollar hd (ds ++ '"' :: rest)
  have hstop : readPlain (· == '[') ('$' :: d :: (ds ++ '"' :: rest)) =
      ([], '$' :: d :: (ds ++ '"' :: rest)) := by
    rw [readPlain_cons_of_ne (by decide), hstart, Bool.or_true]
    rfl
  obtain ⟨hbracket, hdollar, -⟩ : c ≠ '[' ∧ c ≠ '$' ∧ c ≠ '\\' := by
    simpa using hcs c List.mem_cons_self
  rw [hds, List.cons_append]
  have hplain := readPlain_literal hcs hstop
  rw [List.cons_append] at hplain
  obtain ⟨p₁, hliteral⟩ := exists_tokensIn_literal hbracket (startsName_of_ne hdollar _) hplain size
  obtain ⟨p₂, p₃, hreference⟩ := exists_tokensIn_reference hstart hread size
  rw [String.ofList_toList] at hreference
  exact ⟨p₁, p₂, p₃, hliteral.trans (congrArg _ hreference)⟩

end Token.Substitution

/-- The text of an expression that compares two variables as quoted values. -/
def quotedEquality (x y : VarName) : String :=
  "\"$" ++ x.text ++ "\" eq \"$" ++ y.text ++ "\""

namespace Tree

open Token.Substitution

/-- The fragments of that text: the quotes and what is between them, and two references. -/
def quotedEqualityNodes (x y : VarName) : List Node :=
  [⟨.substring, some "\"", []⟩, ⟨.name, some x.text, []⟩, ⟨.substring, some "\" eq \"", []⟩,
    ⟨.name, some y.text, []⟩, ⟨.substring, some "\"", []⟩]

theorem parseSubstitution_quotedEquality {x y : VarName} (hx : x.IsPlain) (hy : y.IsPlain) :
    parseSubstitution (quotedEquality x y) = .ok ⟨.list, none, quotedEqualityNodes x y⟩ := by
  have htext : (quotedEquality x y).toList = '"' :: ([] ++ '$' :: (x.text.toList ++ '"' ::
      ([' ', 'e', 'q', ' ', '"'] ++ '$' :: (y.text.toList ++ '"' :: [])))) := by
    simp [quotedEquality, String.toList_append]
  rw [parseSubstitution_eq, Token.Scanner.start, htext]
  generalize List.length _ = size
  have hquote : ∀ d ∈ ['"'], d ∉ ['[', '$', '\\'] := by simp
  have heq : ∀ d ∈ '"' :: [' ', 'e', 'q', ' ', '"'], d ∉ ['[', '$', '\\'] := by simp
  have hread : Reader.readPlain (· == '[') ['"'] = (['"'], []) := by
    simp [Reader.readPlain_cons, Reader.readPlain_nil, Reader.startsName, Reader.atContinuation,
      Reader.keep]
  obtain ⟨_, _, _, hfirst⟩ := exists_tokensIn_literal_reference hquote hx size
    ([' ', 'e', 'q', ' ', '"'] ++ '$' :: (y.text.toList ++ '"' :: []))
  obtain ⟨_, _, _, hsecond⟩ := exists_tokensIn_literal_reference heq hy size []
  obtain ⟨_, hlast⟩ := exists_tokensIn_literal (by decide) rfl hread size
  rw [hfirst, hsecond, hlast, tokensIn_nil, fragments_string, fragments_reference,
    fragments_string, fragments_reference, fragments_string, fragments_nil]
  rfl

/-- Two literals between quotes and the operator between them. -/
theorem parseExpression_equality {v w : String} (hv : '"' ∉ v.toList) (hw : '"' ∉ w.toList) :
    parseExpression ("\"" ++ v ++ "\" eq \"" ++ w ++ "\"") = .ok ⟨.binary, some "eq",
      [⟨.quoted, some v, []⟩, ⟨.quoted, some w, []⟩]⟩ := by
  have hwritable : Writable ⟨.binary, some "eq", [⟨.quoted, some v, []⟩, ⟨.quoted, some w, []⟩]⟩ :=
    .binary (by decide) (.quoted hv) (.quoted hw)
  have htext : expressionText ⟨.binary, some "eq", [⟨.quoted, some v, []⟩, ⟨.quoted, some w, []⟩]⟩ =
      "\"" ++ v ++ "\" eq \"" ++ w ++ "\"" := by
    simp [expressionText, placed, looseness, ← String.toList_inj, String.toList_append]
  exact htext ▸ hwritable.readsBack.parseExpression

end Tree

/-! ## The comparison -/

theorem Value.ofExpression_equality {v w : String} (hv : '"' ∉ v.toList) (hw : '"' ∉ w.toList) :
    Value.ofExpression ("\"" ++ v ++ "\" eq \"" ++ w ++ "\"") = .ok (Value.ofBool (v = w)) := by
  rw [Value.ofExpression_eq, Tree.parseExpression_equality hv hw]
  rfl

namespace Env

open RunM

/-- The values are put between the quotes, without a change to the state. -/
theorem returns_substitute_quotedEquality {env : Env} {s : Run} {x y : VarName} {v w : String}
    (hx : x.IsPlain) (hy : y.IsPlain) (hv : s.scopes.get? env.scope x = some v)
    (hw : s.scopes.get? env.scope y = some w) :
    (env.substitute env.readVariable (quotedEquality x y)).Returns s
      ("\"" ++ v ++ "\" eq \"" ++ w ++ "\"") s := by
  have hliteral : ∀ text,
      (env.readFragment env.readVariable ⟨.substring, some text, []⟩).Returns s text s :=
    fun _ => rfl
  have hfirst : (env.readFragment env.readVariable ⟨.name, some x.text, []⟩).Returns s v s :=
    returns_readVariable hx hv
  have hsecond : (env.readFragment env.readVariable ⟨.name, some y.text, []⟩).Returns s w s :=
    returns_readVariable hy hw
  have hparse : (RunM.ofExcept (Tree.parseSubstitution (quotedEquality x y))).Returns s
      ⟨.list, none, Tree.quotedEqualityNodes x y⟩ s := by
    rw [Tree.parseSubstitution_quotedEquality hx hy]
    rfl
  have hparts := returns_readFragments_cons (hliteral "\"") (returns_readFragments_cons hfirst
    (returns_readFragments_cons (hliteral "\" eq \"") (returns_readFragments_cons hsecond
      (returns_readFragments_single (hliteral "\"")))))
  simp only [← String.append_assoc] at hparts
  exact hparse.bind hparts

/-- Variables whose values hold no quote are equal between quotes exactly if their values are. -/
theorem evaluateExpression_quotedEquality {env : Env} {s : Run} {x y : VarName} {v w : String}
    (hx : x.IsPlain) (hy : y.IsPlain) (hv : s.scopes.get? env.scope x = some v)
    (hw : s.scopes.get? env.scope y = some w) (hv' : '"' ∉ v.toList) (hw' : '"' ∉ w.toList) :
    (env.evaluateExpression (quotedEquality x y)).Returns s (if v = w then "1" else "0") s := by
  have hexpression :
      (RunM.ofExcept (Value.ofExpression ("\"" ++ v ++ "\" eq \"" ++ w ++ "\""))).Returns s
        (Value.ofBool (v = w)) s := by
    rw [Value.ofExpression_equality hv' hw']
    rfl
  have htext : (Value.ofBool (v = w)).text = if v = w then "1" else "0" := by
    split <;> rename_i h <;> simp only [h, decide_true, decide_false] <;> rfl
  rw [← htext]
  exact (returns_substitute_quotedEquality hx hy hv hw).bind
    (hexpression.bind (returns_pure _ s))

/-- Numerals of one number differ as text, and what looks like a script, a reference or an operator
is none. -/
theorem evaluateExpression_quotedEquality_numerals :
    let env := Setup.env {} 0 0
    let code := " [exit] $x \\\n\x7b) eq 1 ||"
    let s := runWith [("x", "1"), ("a(k)", "1.0"), ("y", code)]
    quotedEquality (.scalar "x") (.element "a" "k") = "\"$x\" eq \"$a(k)\"" ∧
      (env.evaluateExpression (quotedEquality (.scalar "x") (.element "a" "k"))).Returns s "0" s ∧
      (env.evaluateExpression (quotedEquality (.scalar "y") (.scalar "y"))).Returns s "1" s := by
  intro env code s
  have hx : (VarName.scalar "x").IsPlain := isVarText_of_all (by decide)
  have hy : (VarName.scalar "y").IsPlain := isVarText_of_all (by decide)
  have ha : (VarName.element "a" "k").IsPlain :=
    ⟨isVarText_of_all (by decide), List.all_eq_true.1 (by decide)⟩
  have hone : s.scopes.get? env.scope (.scalar "x") = some "1" := by decide +kernel
  have hreal : s.scopes.get? env.scope (.element "a" "k") = some "1.0" := by decide +kernel
  have hcode : s.scopes.get? env.scope (.scalar "y") = some code := by decide +kernel
  have hquote : '"' ∉ code.toList := by decide
  have hnumerals := evaluateExpression_quotedEquality hx ha hone hreal (by decide) (by decide)
  have hsame := evaluateExpression_quotedEquality hy hy hcode hcode hquote hquote
  rw [if_neg (by decide)] at hnumerals
  rw [if_pos rfl] at hsame
  exact ⟨by decide, hnumerals, hsame⟩

end Env

end Tickle
