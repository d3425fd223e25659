import Tickle.Proofs.Tree.Parentheses

/-! # Closing parentheses in the place of operands

If a parenthesis closes where the grammar goes on with an operand, the reader of expressions says
that too many parentheses are closed, whether they pair up or not. By induction over a derivation, a
phrase is read up to the place of any of its numbers, and what stands there instead is looked at by
the reader of operands. For tokens whose parentheses pair up this is the only way to blame them. -/

namespace Tickle.Tree

/-! ## Every missing operand is found -/

/-- A number among the tokens of two lists is in one of them. -/
theorem number_append {ts us front back : List Token} {number : Token}
    (h : ts ++ us = front ++ number :: back) :
    (∃ more, ts = front ++ number :: more) ∨
      ∃ early, front = ts ++ early ∧ us = early ++ number :: back := by
  rcases List.append_eq_append_iff.1 h with hback | ⟨bs, rfl, hbs⟩
  · exact .inr hback
  · cases bs with
    | nil => exact .inr ⟨[], by simp, by simpa using hbs.symm⟩
    | cons b bs =>
      obtain ⟨rfl, -⟩ := List.cons.inj hbs
      exact .inl ⟨bs, rfl⟩

/-- Behind a token that is no number. -/
theorem number_cons {t number : Token} {us front back : List Token} (ht : t.kind ≠ .number)
    (hn : number.kind = .number) (h : t :: us = front ++ number :: back) :
    ∃ early, front = t :: early ∧ us = early ++ number :: back := by
  rcases List.cons_eq_append_iff.1 h with ⟨-, hnumber⟩ | hfront
  · obtain ⟨rfl, -⟩ := List.cons.inj hnumber
    exact absurd hn ht
  · exact hfront

/-- On both sides of a token that is no number. -/
theorem number_around {ts us front back : List Token} {t number : Token} (ht : t.kind ≠ .number)
    (hn : number.kind = .number) (h : ts ++ t :: us = front ++ number :: back) :
    (∃ more, ts = front ++ number :: more) ∨
      ∃ early, front = ts ++ t :: early ∧ us = early ++ number :: back := by
  rcases number_append h with hfirst | ⟨early, rfl, hrest⟩
  · exact .inl hfirst
  · obtain ⟨early', rfl, hus⟩ := number_cons ht hn hrest
    exact .inr ⟨early', rfl, hus⟩

/-- The error of a parenthesis that closes none. -/
def closingError : Error := .parentheses .tooManyClosing (some .rightParen) none

/-- If a parenthesis closes in the place of a number of the phrase, the reader blames it. -/
def RefusesClosing (read : List Token → Except Error (Node × List Token)) (ts : List Token) :
    Prop :=
  ∀ front number back, ts = front ++ number :: back → number.kind = .number →
    ∀ closing more, closing.kind = .rightParen →
      read (front ++ closing :: more) = .error closingError

theorem refusesClosing_of_ne {read : List Token → Except Error (Node × List Token)}
    {ts : List Token} (h : ∀ t ∈ ts, t.kind ≠ .number) : RefusesClosing read ts := by
  intro front number back hts hn
  exact absurd hn (h number (by simp [hts]))

/-- A reader that begins with another one fails where that one fails. -/
theorem RefusesClosing.of_first {read first : List Token → Except Error (Node × List Token)}
    {ts : List Token} (h : RefusesClosing first ts)
    (hread : ∀ tokens e, first tokens = .error e → read tokens = .error e) :
    RefusesClosing read ts := by
  intro front number back hts hn closing more hc
  exact hread _ _ (h front number back hts hn closing more hc)

/-- So does one that takes a token first. -/
theorem RefusesClosing.cons {read first : List Token → Except Error (Node × List Token)}
    {ts : List Token} {t : Token} (h : RefusesClosing first ts) (ht : t.kind ≠ .number)
    (hread : ∀ tokens e, first tokens = .error e → read (t :: tokens) = .error e) :
    RefusesClosing read (t :: ts) := by
  intro front number back hts hn closing more hc
  obtain ⟨early, rfl, hrest⟩ := number_cons ht hn hts
  exact hread _ _ (h early number back hrest hn closing more hc)

/-- What stands behind the phrase does not matter if it is no number. -/
theorem RefusesClosing.concat {read : List Token → Except Error (Node × List Token)}
    {ts : List Token} {t : Token} (h : RefusesClosing read ts) (ht : t.kind ≠ .number) :
    RefusesClosing read (ts ++ [t]) := by
  intro front number back hts hn
  rcases number_around ht hn hts with ⟨more, hinside⟩ | ⟨early, -, hnil⟩
  · exact h front number more hinside hn
  · simp at hnil

theorem RefusesClosing.operation {k : Nat} {ts us : List Token} {op : Token} {left : Node}
    (hl : RefusesClosing (fun ts => plain (binary (k + 1) ts)) ts)
    (hreads : ReadsBinary k ts left) (hop : level? op.kind = some k)
    (hr : RefusesClosing (fun ts => plain (binary k ts)) us) :
    RefusesClosing (fun ts => plain (binary (k + 1) ts)) (ts ++ op :: us) := by
  intro front number back hts hn closing more hc
  have hne : op.kind ≠ .number := by
    intro he
    rw [he] at hop
    cases hop
  rcases number_around hne hn hts with ⟨more', hleft⟩ | ⟨early, rfl, hright⟩
  · exact hl front number more' hleft hn closing more hc
  · have hfails : plain (binary k (early ++ closing :: more)) = .error closingError :=
      hr early number back hright hn closing more hc
    show plain (binary (k + 1) (ts ++ op :: early ++ closing :: more)) = _
    rw [List.append_assoc, List.cons_append, hreads _ (stops_of_level? hop _), plain_chain_cons,
      if_pos hop, hfails]
    rfl

theorem RefusesClosing.conditional {ts us vs : List Token} {question colon : Token}
    {condition yes : Node} (hc : RefusesClosing (fun ts => plain (binary levels ts)) ts)
    (hreads : ReadsBinary binaryLevels.length ts condition) (hquestion : question.kind = .question)
    (hyes : RefusesClosing (fun ts => plain (ternary ts)) us) (hreadsYes : ReadsTernary us yes)
    (hcolon : colon.kind = .colon) (hno : RefusesClosing (fun ts => plain (ternary ts)) vs) :
    RefusesClosing (fun ts => plain (ternary ts)) (ts ++ question :: (us ++ colon :: vs)) := by
  intro front number back hts hn closing more hclosing
  have hcondition : ∀ rest, plain (ternary (ts ++ question :: rest)) =
      afterCondition condition (question :: rest) := by
    intro rest
    have hread : plain (binary levels (ts ++ question :: rest)) =
        .ok (condition, question :: rest) :=
      hreads.ends (stops_of_level?_eq_none (by simp [hquestion]) (by simp [hquestion, level?]) _ _)
    rw [plain_ternary, hread]
    rfl
  rcases number_around (by simp [hquestion]) hn hts with ⟨more', hfirst⟩ | ⟨early, rfl, hrest⟩
  · show plain (ternary _) = _
    rw [plain_ternary, show plain (binary levels _) = _ from
      hc front number more' hfirst hn closing more hclosing]
    rfl
  show plain (ternary (ts ++ question :: early ++ closing :: more)) = _
  rw [List.append_assoc, List.cons_append, hcondition, afterCondition, if_pos hquestion]
  rcases number_around (by simp [hcolon]) hn hrest with ⟨more', hsecond⟩ | ⟨late, rfl, hthird⟩
  · rw [show plain (ternary _) = _ from hyes early number more' hsecond hn closing more hclosing]
    rfl
  · have hread : plain (ternary (us ++ colon :: (late ++ closing :: more))) =
        .ok (yes, colon :: (late ++ closing :: more)) :=
      hreadsYes _ (stops_of_level?_eq_none (by simp [hcolon]) (by simp [hcolon, level?]) _ _)
        (by simp [hcolon])
    rw [List.append_assoc, List.cons_append, hread]
    show (if colon.kind = .colon then _ else _) = _
    rw [if_pos hcolon, show plain (ternary _) = _ from
      hno late number back hthird hn closing more hclosing]
    rfl

theorem plain_binary_succ_error {k : Nat} {tokens : List Token} {e : Error}
    (h : plain (binary k tokens) = .error e) : plain (binary (k + 1) tokens) = .error e := by
  rw [plain_binary_succ, h]
  rfl

theorem plain_ternary_error {tokens : List Token} {e : Error}
    (h : plain (binary levels tokens) = .error e) : plain (ternary tokens) = .error e := by
  rw [plain_ternary, h]
  rfl

theorem plain_factor_unary_error {t : Token} {tokens : List Token} {e : Error}
    (ht : t.kind ∈ unaryOperators) (h : plain (factor tokens) = .error e) :
    plain (factor (t :: tokens)) = .error e := by
  rw [plain_factor_unary ht, h]
  rfl

theorem plain_factor_opening_error {t : Token} {tokens : List Token} {e : Error}
    (ht : t.kind = .leftParen) (h : plain (ternary tokens) = .error e) :
    plain (factor (t :: tokens)) = .error e := by
  rw [plain_factor_opening ht, h]
  rfl

theorem afterName_error {name t : Token} {tokens : List Token} {e : Error}
    (ht : t.kind = .leftParen) (h : plain (ternary tokens) = .error e) :
    afterName name (t :: tokens) = .error e := by
  rw [afterName, if_pos ht, h]
  rfl

theorem ne_number_of_mem_unaryOperators {kind : Token.Kind} (h : kind ∈ unaryOperators) :
    kind ≠ .number := by
  rintro rfl
  exact absurd h (by decide)

theorem ne_number_of_mem_literalDelimiters {p : Token.Kind × Token.Kind}
    (h : p ∈ literalDelimiters) : p.1 ≠ .number ∧ p.2 ≠ .number := by
  have hall : ∀ p ∈ literalDelimiters, p.1 ≠ .number ∧ p.2 ≠ .number := by decide
  exact hall p h

mutual

/-- What the grammar derives is read up to the place of a number, and a parenthesis that closes
there is blamed. -/
theorem Ternary.refusesClosing {ts : List Token} {n : Node} :
    Ternary ts n → RefusesClosing (fun ts => plain (ternary ts)) ts
  | .chain h => h.refusesClosing.of_first fun _ _ => plain_ternary_error
  | .conditional hc hquestion hyes hcolon hno =>
    hc.refusesClosing.conditional hc.reads hquestion hyes.refusesClosing hyes.reads hcolon
      hno.refusesClosing

theorem Binary.refusesClosing {k : Nat} {ts : List Token} {n : Node} :
    Binary k ts n → RefusesClosing (fun ts => plain (binary (k + 1) ts)) ts
  | .factor h => by
    have hzero := h.refusesClosing
    simp only [← plain_binary_zero] at hzero
    exact hzero.of_first fun _ _ => plain_binary_succ_error
  | .power hl hop hr => by
    have hzero := hr.refusesClosing
    simp only [← plain_binary_zero] at hzero
    exact hl.refusesClosing.operation hl.reads (by simp [hop, level?]) hzero
  | .tighter h => h.refusesClosing.of_first fun _ _ => plain_binary_succ_error
  | .operation hl hk hop hr =>
    hl.refusesClosing.operation hl.reads (level?_of_mem hk hop) hr.refusesClosing

theorem Factor.refusesClosing {ts : List Token} {n : Node} :
    Factor ts n → RefusesClosing (fun ts => plain (factor ts)) ts
  | .number ht => by
    intro front number back hts _ closing more hc
    obtain ⟨rfl, -⟩ : front = [] ∧ _ := by simpa [List.singleton_eq_append_iff] using hts
    show plain (factor (closing :: more)) = _
    rw [plain_factor_cons]
    simp only [hc, isUnary]
    rfl
  | .name ht => refusesClosing_of_ne (by simp [ht])
  | .call ht ho h hc =>
    ((h.refusesClosing.concat (by simp [hc])).cons (by simp [ho]) fun _ _ =>
      afterName_error ho).cons (by simp [ht]) fun _ _ => (plain_factor_name ht _).trans
  | .unary ht h =>
    h.refusesClosing.cons (ne_number_of_mem_unaryOperators ht) fun _ _ =>
      plain_factor_unary_error ht
  | .parentheses ho h hc =>
    (h.refusesClosing.concat (by simp [hc])).cons (by simp [ho]) fun _ _ =>
      plain_factor_opening_error ho
  | .empty hd => refusesClosing_of_ne (by simpa using ne_number_of_mem_literalDelimiters hd)
  | .literal hd ht =>
    refusesClosing_of_ne (by simpa [ht] using ne_number_of_mem_literalDelimiters hd)

end

/-! ## Expressions with paired parentheses -/

theorem expressionOfTokens_of_closesEarly {tokens : List Token}
    (h : ClosesEarly Ternary (Token.untilEnd tokens)) :
    expressionOfTokens tokens = .error closingError := by
  obtain ⟨front, back, closing, htokens, hclosing, number, behind, n, hnumber, hphrase⟩ := h
  have hfails : plain (ternary (Token.untilEnd tokens)) = .error closingError := by
    rw [htokens]
    exact hphrase.refusesClosing front number behind rfl hnumber closing back hclosing
  rw [expressionOfTokens_of_ne_nil (by simp [htokens]), hfails]
  rfl

/-- A parenthesis that closes behind a whole expression has no partner. -/
theorem not_paired_of_ternary {used rest : List Token} {n : Node} {closing : Token}
    (h : Ternary used n) (hc : closing.kind = .rightParen) :
    ¬ Paired (used ++ closing :: rest) := by
  intro hpaired
  rw [Paired, h.neutral, openAfter] at hpaired
  simp [hc] at hpaired

theorem closesEarly_of_expressionOfTokens {tokens : List Token} {e : Error}
    (hpaired : Paired (Token.untilEnd tokens)) (he : expressionOfTokens tokens = .error e)
    (hfamily : e.family = .parentheses) : ClosesEarly Ternary (Token.untilEnd tokens) := by
  have hne : Token.untilEnd tokens ≠ [] := by
    intro hnil
    rw [expressionOfTokens_of_nothing hnil] at he
    cases he
  rw [expressionOfTokens_of_ne_nil hne] at he
  have hsound := ternary_sound (Token.untilEnd tokens)
  have hexplained := ternary_explained (Token.untilEnd tokens)
  cases hr : plain (ternary (Token.untilEnd tokens)) with
  | error e' =>
    rw [hr] at he
    cases he
    rcases hexplained e hr hfamily with hearly | hinside
    · exact hearly
    · obtain ⟨inner, hlt, hopen⟩ := hinside 0
      rw [hpaired] at hopen
      cases hopen
      exact absurd hlt (Nat.lt_irrefl 0)
  | ok r =>
    obtain ⟨node, rest⟩ := r
    rw [hr] at he hsound
    obtain ⟨used, hused, hderived⟩ := hsound
    cases rest with
    | nil => cases he
    | cons t rest =>
      have hfail : (if t.kind = .rightParen then _ else _) = Except.error e := he
      split at hfail
      · rename_i ht
        rw [hused] at hpaired
        exact absurd hpaired (not_paired_of_ternary hderived ht)
      · cases hfail
        cases hfamily

/-- If the parentheses pair up, they are blamed exactly if one of them closes where an operand has
to stand, and then it is said that too many close; all other errors are errors of syntax. -/
theorem expressionOfTokens_of_paired {tokens : List Token} (h : Paired (Token.untilEnd tokens)) :
    (¬ ClosesEarly Ternary (Token.untilEnd tokens) → FailsIn [.parse] (expressionOfTokens tokens)) ∧
    (ClosesEarly Ternary (Token.untilEnd tokens) →
      expressionOfTokens tokens = .error closingError) := by
  refine ⟨fun hnot e he => ?_, expressionOfTokens_of_closesEarly⟩
  have hfamily : e.family = .parse ∨ e.family = .parentheses := by
    simpa using family_of_expressionOfTokens he
  rcases hfamily with hparse | hparentheses
  · simp [hparse]
  · exact absurd (closesEarly_of_expressionOfTokens h he hparentheses) hnot

/-- `f(!) * (1)`: the operand of a sign is missing, and what follows is not read. -/
theorem expressionOfTokens_of_paired_sign :
    let call : List Token := [⟨.name, some "f", 0⟩, ⟨.leftParen, some "(", 1⟩, ⟨.not, some "!", 2⟩]
    let rest : List Token := [⟨.times, some "*", 5⟩, ⟨.leftParen, some "(", 7⟩,
      ⟨.number, some "1", 8⟩, ⟨.rightParen, some ")", 9⟩, ⟨.endOfText, none, 10⟩]
    let tokens := call ++ ⟨.rightParen, some ")", 3⟩ :: rest
    Paired (Token.untilEnd tokens) ∧ ClosesEarly Ternary (Token.untilEnd tokens) ∧
      expressionOfTokens tokens = .error closingError := by
  intro call rest tokens
  have hpaired : Paired (Token.untilEnd tokens) := by decide
  have hoperand : Ternary [⟨.not, some "!", 2⟩, sample .number] _ :=
    Factor.ternary (.unary (by decide) (.number rfl))
  have hphrase : Ternary (call ++ [sample .number, sample .rightParen]) _ :=
    Factor.ternary (.call rfl rfl hoperand rfl)
  have hearly : ClosesEarly Ternary (Token.untilEnd tokens) :=
    ⟨call, _, _, rfl, rfl, sample .number, [sample .rightParen], _, rfl, hphrase⟩
  exact ⟨hpaired, hearly, (expressionOfTokens_of_paired hpaired).2 hearly⟩

/-- In `()` the parentheses pair up, and yet they are blamed. -/
theorem expressionOfTokens_empty_parentheses :
    let tokens : List Token :=
      [⟨.leftParen, some "(", 0⟩, ⟨.rightParen, some ")", 1⟩, ⟨.endOfText, none, 2⟩]
    Paired (Token.untilEnd tokens) ∧
      ∃ e, expressionOfTokens tokens = .error e ∧ e.family = .parentheses := by
  intro tokens
  have hphrase : Ternary [⟨.leftParen, some "(", 0⟩, sample .number, sample .rightParen] _ :=
    Factor.ternary (.parentheses rfl (Factor.ternary (.number rfl)) rfl)
  have hearly : ClosesEarly Ternary (Token.untilEnd tokens) :=
    ⟨[⟨.leftParen, some "(", 0⟩], [], _, rfl, rfl, sample .number, [sample .rightParen], _, rfl,
      hphrase⟩
  exact ⟨by decide, closingError, expressionOfTokens_of_closesEarly hearly, rfl⟩

end Tickle.Tree
