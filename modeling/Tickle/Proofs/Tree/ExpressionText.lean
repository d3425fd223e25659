import Tickle.Proofs.Token.ExpressionWords
import Tickle.Proofs.Tree.ExpressionGrammar
import Tickle.Tree.ExpressionText

/-! # Expressions read back

The text of a tree is read as that tree. By induction on the tree, its text is read as tokens from
which the grammar derives it where a phrase as loose as the tree may stand; parentheses make a
factor of it, and a factor may stand everywhere. That the reader of expressions accepts what the
grammar derives is the completeness of recursive descent. -/

namespace Tickle.Tree

open Token Token.Expression

/-- The grammar derives the node where phrases up to looseness `k` may stand. -/
def Fits (k : Nat) (ts : List Token) (n : Node) : Prop :=
  if k ≤ levels then AtLevel k ts n else Ternary ts n

theorem AtLevel.mono {j k : Nat} {ts : List Token} {n : Node} (h : AtLevel j ts n) (hle : j ≤ k) :
    AtLevel k ts n := by
  induction hle with
  | refl => exact h
  | step _ ih => exact ih.tighter

theorem AtLevel.fits {k : Nat} {ts : List Token} {n : Node} (h : AtLevel k ts n)
    (hk : k ≤ levels) : Fits k ts n := by
  rwa [Fits, if_pos hk]

theorem Fits.atLevel {k : Nat} {ts : List Token} {n : Node} (h : Fits k ts n) (hk : k ≤ levels) :
    AtLevel k ts n := by
  rwa [Fits, if_pos hk] at h

theorem Fits.ternary {k : Nat} {ts : List Token} {n : Node} (h : Fits k ts n) : Ternary ts n := by
  by_cases hk : k ≤ levels
  · exact .chain ((h.atLevel hk).mono hk)
  · rwa [Fits, if_neg hk] at h

theorem Fits.mono {j k : Nat} {ts : List Token} {n : Node} (h : Fits j ts n) (hle : j ≤ k) :
    Fits k ts n := by
  by_cases hk : k ≤ levels
  · exact ((h.atLevel (Nat.le_trans hle hk)).mono hle).fits hk
  · rw [Fits, if_neg hk]
    exact h.ternary

theorem Factor.fits {ts : List Token} {n : Node} (h : Factor ts n) (k : Nat) : Fits k ts n :=
  Fits.mono (j := 0) h (Nat.zero_le k)

/-! ## Operators and names -/

theorem reads_operator {text : String} {kind : Kind} (h : (text, kind) ∈ operatorKinds) :
    Reads text (Single kind text) := by
  have hend : ∀ p ∈ operatorKinds, p.2 ≠ .endOfText := by decide
  exact (isWord_operator _ h).reads (hend _ h)

/-- Every binary operator is read as a token of its level. -/
theorem exists_operatorKind {op : String} (h : op ∈ operatorLevels.map Prod.fst) :
    ∃ kind, (op, kind) ∈ operatorKinds ∧ level? kind = some (operatorLevel op) ∧
      (kind = .power → op = "**") := by
  have hall : ∀ op ∈ operatorLevels.map Prod.fst, ∃ p ∈ operatorKinds, p.1 = op ∧
      level? p.2 = some (operatorLevel op) ∧ (p.2 = .power → op = "**") := by
    decide +kernel
  obtain ⟨⟨_, kind⟩, hmem, rfl, hlevel, hpower⟩ := hall op h
  exact ⟨kind, hmem, hlevel, hpower⟩

theorem operatorLevel_lt {op : String} (h : op ∈ operatorLevels.map Prod.fst) :
    operatorLevel op < levels := by
  have hall : ∀ op ∈ operatorLevels.map Prod.fst, operatorLevel op < levels := by decide +kernel
  exact hall op h

theorem exists_signKind {sign : String} (h : sign ∈ unarySigns) :
    ∃ kind, (sign, kind) ∈ operatorKinds ∧ kind ∈ unaryOperators := by
  have hall : ∀ sign ∈ unarySigns, ∃ p ∈ operatorKinds, p.1 = sign ∧ p.2 ∈ unaryOperators := by
    decide +kernel
  obtain ⟨⟨_, kind⟩, hmem, rfl, hkind⟩ := hall sign h
  exact ⟨kind, hmem, hkind⟩

theorem reads_name {text : String} (h : isName text = true) : Reads text (Single .name text) := by
  unfold isName at h
  split at h
  · cases h
  · rename_i c cs htext
    simp only [Bool.and_eq_true, List.all_eq_true, Bool.not_eq_true'] at h
    obtain ⟨⟨hname, hdigit⟩, hop⟩ := h
    have hkind : wordKind text = .name := by
      simp only [wordOperators, List.contains_eq_mem, List.mem_cons, List.not_mem_nil,
        decide_eq_false_iff_not, not_or] at hop
      simp [wordKind, hop]
    have hword := isWord_wordKind htext hname hdigit
    rw [hkind] at hword
    exact hword.reads (by decide)

/-! ## Trees -/

theorem reads_parenthesized {text : String} {D : List Token → Prop} (h : Reads text D) :
    Reads (parenthesized text) fun ts => ∃ opening inner closing,
      ts = opening :: (inner ++ [closing]) ∧ opening.kind = .leftParen ∧ D inner ∧
        closing.kind = .rightParen := by
  have hopen : Reads "(" (Single .leftParen "(") := reads_operator (by decide)
  have hclose : Reads ")" (Single .rightParen ")") := reads_operator (by decide)
  refine ((hopen.space h).space hclose).mono ?_
  rintro _ ⟨_, _, rfl, ⟨_, inner, rfl, ⟨opening, rfl, ho, -⟩, hd⟩, closing, rfl, hc, -⟩
  exact ⟨opening, inner, closing, rfl, ho, hd, hc⟩

/-- The text of a tree is read as tokens that derive it as loosely as it binds. -/
def ReadsBack (n : Node) : Prop := Reads (expressionText n) fun ts => Fits (looseness n) ts n

/-- A tree is read back in its place, with parentheses or without. -/
theorem ReadsBack.placed {n : Node} (h : ReadsBack n) (k : Nat) :
    Reads (placed k n (expressionText n)) fun ts => Fits k ts n := by
  unfold Tree.placed
  split
  · rename_i hle
    exact h.mono fun ts hts => hts.mono hle
  · refine (reads_parenthesized h).mono ?_
    rintro _ ⟨opening, inner, closing, rfl, ho, hinner, hc⟩
    exact (Factor.parentheses ho hinner.ternary hc).fits k

theorem ReadsBack.unary {sign : String} {operand : Node} (hsign : sign ∈ unarySigns)
    (h : ReadsBack operand) :
    ReadsBack ⟨.unary, some sign, [operand]⟩ := by
  obtain ⟨kind, hmem, hkind⟩ := exists_signKind hsign
  refine ((reads_operator hmem).space (h.placed 0)).mono ?_
  rintro _ ⟨_, ts, rfl, ⟨t, rfl, rfl, ht⟩, hts⟩
  exact ht ▸ (Factor.unary hkind hts).fits 0

theorem ReadsBack.binary {op : String} {left right : Node} (hop : op ∈ operatorLevels.map Prod.fst)
    (hl : ReadsBack left)
    (hr : ReadsBack right) :
    ReadsBack ⟨.binary, some op, [left, right]⟩ := by
  obtain ⟨kind, hmem, hlevel, hpower⟩ := exists_operatorKind hop
  have hlt := operatorLevel_lt hop
  refine (((hl.placed _).space (reads_operator hmem)).space (hr.placed _)).mono ?_
  rintro _ ⟨_, us, rfl, ⟨ts, _, rfl, hts, t, rfl, rfl, ht⟩, hus⟩
  have hnode : binaryNode t left right = ⟨.binary, some op, [left, right]⟩ := by
    unfold binaryNode
    split
    · rename_i hp
      rw [hpower hp]
    · rw [ht]
  have hoperation := (hts.atLevel hlt).operation hlevel (hus.atLevel (Nat.le_of_lt hlt))
  rw [hnode, List.append_cons] at hoperation
  exact hoperation.fits hlt

theorem ReadsBack.ternary {condition yes no : Node}
    (hc : ReadsBack condition)
    (hyes : ReadsBack yes)
    (hno : ReadsBack no) :
    ReadsBack ⟨.ternary, some "?", [condition, yes, no]⟩ := by
  have hquestion : Reads "?" (Single .question "?") := reads_operator (by decide)
  have hcolon : Reads ":" (Single .colon ":") := reads_operator (by decide)
  refine (((((hc.placed 11).space hquestion).space hyes).space hcolon).space hno).mono ?_
  rintro _ ⟨_, vs, rfl, ⟨_, _, rfl, ⟨_, us, rfl, ⟨ts, _, rfl, hts, question, rfl, hq, -⟩, hus⟩,
    colon, rfl, hcol, -⟩, hvs⟩
  have hconditional := Ternary.conditional (hts.atLevel (Nat.le_refl _)) hq hus.ternary hcol
    hvs.ternary
  show Ternary _ _
  simpa using hconditional

theorem ReadsBack.call {text : String} {argument : Node} (hname : isName text = true)
    (h : ReadsBack argument) :
    ReadsBack ⟨.call, some text, [argument]⟩ := by
  refine ((reads_name hname).space (reads_parenthesized h)).mono ?_
  rintro _ ⟨_, _, rfl, ⟨t, rfl, hk, ht⟩, opening, inner, closing, rfl, ho, hinner, hc⟩
  exact ht ▸ (Factor.call hk ho hinner.ternary hc).fits 0

theorem Writable.readsBack {n : Node} (h : Writable n) : ReadsBack n := by
  induction h with
  | number n htext =>
    subst htext
    refine ((isWord_number n).reads (by decide)).mono ?_
    rintro _ ⟨t, rfl, hk, ht⟩
    exact ht ▸ (Factor.number hk).fits 0
  | name hname =>
    refine (reads_name hname).mono ?_
    rintro _ ⟨t, rfl, hk, ht⟩
    exact ht ▸ (Factor.name hk).fits 0
  | quoted hquote =>
    refine (reads_quoted hquote).mono ?_
    rintro _ ⟨opening, t, closing, rfl, ho, hk, ht, hc⟩
    have hliteral : Factor [opening, t, closing] ⟨.quoted, some (t.text.getD ""), []⟩ :=
      .literal (by rw [ho, hc]; decide) hk
    rw [ht] at hliteral
    exact hliteral.fits 0
  | unary hsign _ ih => exact ih.unary hsign
  | binary hop _ _ ihl ihr => exact ihl.binary hop ihr
  | ternary _ _ _ ihc ihyes ihno => exact ihc.ternary ihyes ihno
  | call hname _ ih => exact ih.call hname

/-- A text is parsed to the tree that its tokens derive. -/
theorem parseExpression_of_reads {text : String} {n : Node}
    (h : Reads text fun ts => Ternary ts n) : parseExpression text = .ok n := by
  obtain ⟨ts, hderives, tokens, htokens, huntil⟩ := h.tokens
  rw [parseExpression_eq, htokens]
  exact expressionOfTokens_of_derives (.inr (huntil ▸ hderives))

theorem ReadsBack.parseExpression {n : Node} (h : ReadsBack n) :
    parseExpression (expressionText n) = .ok n :=
  parseExpression_of_reads (h.mono fun _ hfits => hfits.ternary)

/-- Writing a tree as text and parsing the text gives the tree back. -/
theorem parseExpression_expressionText {tree : Node} (h : Writable tree) :
    parseExpression (expressionText tree) = .ok tree := by
  obtain ⟨ts, hfits, tokens, htokens, huntil⟩ := h.readsBack.tokens
  have hderives : Derives tokens tree := .inr (huntil ▸ hfits.ternary)
  rw [parseExpression_eq, htokens]
  exact expressionOfTokens_of_derives hderives

/-- A conditional as a condition and a difference as a right operand are written in parentheses; a
difference as a left operand and an argument are not. -/
theorem parseExpression_expressionText_grouped :
    let one : Node := ⟨.number, some "1", []⟩
    let name : Node := ⟨.string, some "a", []⟩
    let difference : Node := ⟨.binary, some "-", [one, name]⟩
    let tree : Node := ⟨.ternary, some "?",
      [⟨.ternary, some "?", [name, one, name]⟩, ⟨.binary, some "-", [difference, difference]⟩,
        ⟨.binary, some "**", [⟨.unary, some "-", [⟨.quoted, some "x ( y", []⟩]⟩,
          ⟨.call, some "f", [difference]⟩]⟩]⟩
    expressionText tree =
        "( a ? 1 : a ) ? 1 - a - ( 1 - a ) : - \"x ( y\" ** f ( 1 - a )" ∧
      parseExpression (expressionText tree) = .ok tree := by
  refine ⟨by decide +kernel, parseExpression_expressionText ?_⟩
  have hone : Writable ⟨.number, some "1", []⟩ := .number 1 (by decide +kernel)
  have hname : Writable ⟨.string, some "a", []⟩ := .name (by decide +kernel)
  have hdifference : Writable ⟨.binary, some "-", [_, _]⟩ := .binary (by decide) hone hname
  exact .ternary (.ternary hname hone hname) (.binary (by decide) hdifference hdifference)
    (.binary (by decide) (.unary (by decide) (.quoted (by decide)))
      (.call (by decide +kernel) hdifference))

end Tickle.Tree
