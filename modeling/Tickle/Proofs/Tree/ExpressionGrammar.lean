import Tickle.Proofs.Tree.Descent

/-! # Recursive descent and the grammar

The reader of expressions accepts exactly what the grammar derives, and gives the derived tree. It
is sound by induction over its own recursion: what it has read so far derives the tree in hand, also
inside a chain of operators. It is complete by induction over derivations: in front of tokens that
cannot continue a phrase it reads that phrase and stops. Since it is a function, the derived tree is
unique. -/

namespace Tickle.Tree

open Token (After)

/-! ## Soundness -/

/-- The tokens read derive the node, or the error is one of syntax. -/
def Sound (D : List Token → Node → Prop) (tokens : List Token) :
    Except Error (Node × List Token) → Prop
  | .ok (node, rest) => ∃ used, tokens = used ++ rest ∧ D used node
  | .error e => e.family ∈ [.parse, .parentheses]

/-- Reading goes on with what the first reader left. -/
theorem Sound.bind {D D' : List Token → Node → Prop} {tokens : List Token}
    {r : Except Error (Node × List Token)}
    {f : Node × List Token → Except Error (Node × List Token)} (front : List Token)
    (h : Sound D tokens r)
    (hf : ∀ node used rest, r = .ok (node, rest) → D used node →
      Sound D' (front ++ used ++ rest) (f (node, rest))) :
    Sound D' (front ++ tokens) (r.bind f) := by
  match r, h with
  | .ok (node, rest), ⟨used, ht, hd⟩ =>
    rw [ht, ← List.append_assoc]
    exact hf node used rest rfl hd
  | .error _, h => exact h

theorem Sound.map {D D' : List Token → Node → Prop} {tokens : List Token}
    {r : Except Error (Node × List Token)} (front : List Token) (f : Node → Node)
    (h : Sound D tokens r) (hf : ∀ node used, D used node → D' (front ++ used) (f node)) :
    Sound D' (front ++ tokens) (r.map fun (node, rest) => (f node, rest)) := by
  match r, h with
  | .ok (node, rest), ⟨used, ht, hd⟩ =>
    exact ⟨front ++ used, by rw [ht, List.append_assoc], hf node used hd⟩
  | .error _, h => exact h

theorem plain_ok {p : List Token → Prop} {r : Except Error (Node × { rest : List Token // p rest })}
    {node : Node} {rest : List Token} (h : plain r = .ok (node, rest)) : p rest := by
  cases r with
  | error e => cases h
  | ok r =>
    obtain ⟨node', rest', hp⟩ := r
    cases h
    exact hp

theorem closeLiteral_sound {front : List Token} {close : Token.Kind} {text : String}
    (hD : ∀ closing : Token, closing.kind = close →
      Factor (front ++ [closing]) ⟨.quoted, some text, []⟩) (tokens : List Token) :
    Sound Factor (front ++ tokens) (plain (closeLiteral close text tokens)) := by
  cases tokens with
  | nil => simp [closeLiteral, plain, Except.map, Sound, Error.family]
  | cons t rest =>
    by_cases ht : t.kind = close
    · simp only [closeLiteral, if_pos ht]
      exact ⟨front ++ [t], by simp [After.tail], hD t ht⟩
    · simp [closeLiteral, if_neg ht, plain, Except.map, Sound, Error.family]

theorem literal_sound {opening : Token} {close : Token.Kind}
    (hd : (opening.kind, close) ∈ literalDelimiters) (tokens : List Token) :
    Sound Factor (opening :: tokens) (plain (literal close tokens)) := by
  have hempty : ∀ closing : Token, closing.kind = close →
      Factor ([opening] ++ [closing]) ⟨.quoted, some "", []⟩ := by
    rintro closing rfl
    exact .empty hd
  cases tokens with
  | nil => exact closeLiteral_sound hempty []
  | cons t rest =>
    by_cases ht : t.kind = .string
    · have htext : ∀ closing : Token, closing.kind = close →
          Factor ([opening, t] ++ [closing]) ⟨.quoted, some (t.text.getD ""), []⟩ := by
        rintro closing rfl
        exact .literal hd ht
      have hplain : plain (literal close (t :: rest)) =
          plain (closeLiteral close (t.text.getD "") rest) := by
        simp only [literal, if_pos ht]
        cases closeLiteral close (t.text.getD "") rest <;> rfl
      rw [hplain]
      exact closeLiteral_sound htext rest
    · simp only [literal, if_neg ht]
      exact closeLiteral_sound hempty (t :: rest)

theorem afterInner_sound {D : List Token → Node → Prop} {front : List Token} {inner : Node}
    (hD : ∀ closing : Token, closing.kind = .rightParen → D (front ++ [closing]) inner)
    (rest : List Token) : Sound D (front ++ rest) (afterInner inner rest) := by
  cases rest with
  | nil => simp [afterInner, Sound, Error.family]
  | cons t rest =>
    simp only [afterInner]
    split
    · rename_i ht
      exact ⟨front ++ [t], by simp, hD t ht⟩
    · simp [Sound, Error.family]

mutual

theorem ternary_sound (tokens : List Token) : Sound Ternary tokens (plain (ternary tokens)) := by
  rw [plain_ternary]
  refine Sound.bind [] (binary_sound levels tokens) fun condition used rest hr hd => ?_
  have hlt := plain_ok hr
  cases rest with
  | nil => exact ⟨used, by simp, .chain hd⟩
  | cons t rest =>
    simp only [afterCondition]
    split
    · rename_i ht
      rw [List.nil_append, List.append_cons]
      refine Sound.bind (used ++ [t]) (ternary_sound rest) fun yes used₁ rest₁ hr₁ hd₁ => ?_
      have hlt₁ := plain_ok hr₁
      cases rest₁ with
      | nil => simp [Sound, Error.family]
      | cons t' rest₁ =>
        dsimp only
        split
        · rename_i ht'
          rw [List.append_cons]
          refine Sound.map _ (fun no => ⟨.ternary, some "?", [condition, yes, no]⟩)
            (ternary_sound rest₁) fun no used₂ hd₂ => ?_
          simpa using Ternary.conditional hd ht hd₁ ht' hd₂
        · simp [Sound, Error.family]
    · exact ⟨used, rfl, .chain hd⟩
termination_by (tokens.length, levels + 2)
decreasing_by
  · exact Prod.Lex.right _ (Nat.lt_succ_self _)
  · apply Prod.Lex.left
    simp only [List.length_cons] at hlt
    omega
  · apply Prod.Lex.left
    simp only [List.length_cons] at hlt hlt₁
    omega

theorem binary_sound (k : Nat) (tokens : List Token) :
    Sound (AtLevel k) tokens (plain (binary k tokens)) := by
  match k with
  | 0 =>
    rw [plain_binary_zero]
    exact factor_sound tokens
  | k + 1 =>
    rw [plain_binary_succ]
    refine Sound.bind [] (binary_sound k tokens) fun left used rest hr hd => ?_
    have hlt := plain_ok hr
    exact chain_sound k left rest used hd.tighter
termination_by (tokens.length, k + 1)
decreasing_by
  · exact Prod.Lex.right _ (Nat.lt_succ_self _)
  · exact Prod.Lex.right _ (Nat.lt_succ_self _)
  · exact Prod.Lex.left _ _ hlt

theorem chain_sound (k : Nat) (left : Node) (tokens front : List Token)
    (h : AtLevel (k + 1) front left) :
    Sound (AtLevel (k + 1)) (front ++ tokens) (plain (chain k left tokens)) := by
  match tokens with
  | [] =>
    rw [plain_chain_nil]
    exact ⟨front, rfl, h⟩
  | op :: rest =>
    rw [plain_chain_cons]
    split
    · rename_i hop
      rw [List.append_cons]
      refine Sound.bind _ (binary_sound k rest) fun right used rest₁ hr hd => ?_
      have hlt := plain_ok hr
      refine chain_sound k (binaryNode op left right) rest₁ _ ?_
      simpa using h.operation hop hd
    · exact ⟨front, rfl, h⟩
termination_by (tokens.length, 0)
decreasing_by
  · exact Prod.Lex.left _ _ (Nat.lt_succ_self _)
  · exact Prod.Lex.left _ _ (Nat.lt_succ_of_lt hlt)

theorem factor_sound (tokens : List Token) : Sound Factor tokens (plain (factor tokens)) := by
  match tokens with
  | [] => simp [plain_factor_nil, Sound, Error.family]
  | t :: rest =>
    rw [plain_factor_cons]
    split
    · rename_i ht
      exact ⟨[t], rfl, .number ht⟩
    split
    · rename_i ht
      exact Sound.map [t] (fun operand => ⟨.unary, t.text, [operand]⟩) (factor_sound rest)
        fun operand used hd => Factor.unary (isUnary_iff.1 ht) hd
    split
    · rename_i ht
      refine Sound.bind [t] (ternary_sound rest) fun inner used rest₁ hr hd => ?_
      exact afterInner_sound (fun closing hc => by simpa using Factor.parentheses ht hd hc) rest₁
    split
    · simp [Sound, Error.family]
    split
    · rename_i ht
      exact literal_sound (by rw [ht]; decide) rest
    split
    · rename_i ht
      exact literal_sound (by rw [ht]; decide) rest
    split
    · rename_i ht
      match rest with
      | [] => exact ⟨[t], rfl, .name ht⟩
      | t' :: rest =>
        simp only [afterName]
        split
        · rename_i ht'
          refine Sound.bind [t, t'] (ternary_sound rest) fun argument used rest₁ hr hd => ?_
          rw [List.append_assoc]
          refine Sound.map [t, t'] (fun n => ⟨.call, t.text, [n]⟩)
            (afterInner_sound
              (D := fun ts n => Factor (t :: t' :: ts) ⟨.call, t.text, [n]⟩) ?_ rest₁)
            fun n used hd => hd
          exact fun closing hc => .call ht ht' hd hc
        · exact ⟨[t], rfl, .name ht⟩
    · simp [Sound, Error.family]
termination_by (tokens.length, 0)
decreasing_by
  · exact Prod.Lex.left _ _ (Nat.lt_succ_of_lt (Nat.lt_succ_self _))
  · exact Prod.Lex.left _ _ (Nat.lt_succ_self _)
  · exact Prod.Lex.left _ _ (Nat.lt_succ_self _)

end

/-! ## Completeness -/

/-- In front of these tokens a phrase at level `k` ends: they do not call a name, nor do they
continue with an operator that binds tighter. -/
def Stops (k : Nat) (rest : List Token) : Prop :=
  ∀ t ∈ rest.head?, t.kind ≠ .leftParen ∧ ∀ l, level? t.kind = some l → k ≤ l

theorem Stops.mono {k l : Nat} {rest : List Token} (h : Stops k rest) (hle : l ≤ k) :
    Stops l rest :=
  fun t ht => ⟨(h t ht).1, fun m hm => Nat.le_trans hle ((h t ht).2 m hm)⟩

theorem stops_of_level?_eq_none {t : Token} (ht : t.kind ≠ .leftParen) (hl : level? t.kind = none)
    (k : Nat) (rest : List Token) : Stops k (t :: rest) := by
  intro t' h
  cases h
  exact ⟨ht, fun l h => by rw [hl] at h; cases h⟩

theorem stops_of_level? {t : Token} {k : Nat} (hl : level? t.kind = some k) (rest : List Token) :
    Stops k (t :: rest) := by
  intro t' h
  cases h
  refine ⟨?_, fun l h => ?_⟩
  · intro ht
    rw [ht] at hl
    cases hl
  · rw [hl] at h
    cases h
    exact Nat.le_refl _

/-- A chain does not go on in front of looser operators. -/
theorem plain_chain_of_stops {k : Nat} {rest : List Token} (left : Node) (h : Stops (k + 1) rest) :
    plain (chain k left rest) = .ok (left, rest) := by
  cases rest with
  | nil => exact plain_chain_nil k left
  | cons t rest =>
    have hne : level? t.kind ≠ some k := by
      intro hl
      have := (h t rfl).2 k hl
      omega
    rw [plain_chain_cons, if_neg hne]

/-- A condition is all there is in front of tokens that do not go on with a question mark. -/
theorem afterCondition_of_ne {condition : Node} {rest : List Token}
    (h : ∀ t ∈ rest.head?, t.kind ≠ .question) :
    afterCondition condition rest = .ok (condition, rest) := by
  cases rest with
  | nil => rfl
  | cons t rest => rw [afterCondition, if_neg (h t rfl)]

theorem plain_literal_empty {close : Token.Kind} {t : Token} (ht : t.kind = close)
    (hs : close ≠ .string) (rest : List Token) :
    plain (literal close (t :: rest)) = .ok (⟨.quoted, some "", []⟩, rest) := by
  rw [literal, if_neg (by rw [ht]; exact hs), closeLiteral, if_pos ht]
  rfl

theorem plain_literal_string {close : Token.Kind} {t t' : Token} (ht : t.kind = .string)
    (ht' : t'.kind = close) (rest : List Token) :
    plain (literal close (t :: t' :: rest)) =
      .ok (⟨.quoted, some (t.text.getD ""), []⟩, rest) := by
  rw [literal, if_pos ht, closeLiteral, if_pos ht']
  rfl

/-- A token that opens a literal is read up to the token that closes it. -/
theorem plain_factor_literal {opening : Token} {close : Token.Kind}
    (h : (opening.kind, close) ∈ literalDelimiters) (rest : List Token) :
    close ≠ .string ∧ plain (factor (opening :: rest)) = plain (literal close rest) := by
  have hcases : opening.kind = .leftQuote ∧ close = .rightQuote ∨
      opening.kind = .leftBrace ∧ close = .rightBrace := by
    simpa [literalDelimiters] using h
  rcases hcases with ⟨ho, rfl⟩ | ⟨ho, rfl⟩
  · exact ⟨by decide, by rw [plain_factor_cons]; simp [ho, isUnary]⟩
  · exact ⟨by decide, by rw [plain_factor_cons]; simp [ho, isUnary]⟩

/-- The tokens are read as this conditional in front of what does not continue it. -/
def ReadsTernary (ts : List Token) (n : Node) : Prop :=
  ∀ rest, Stops levels rest → (∀ t ∈ rest.head?, t.kind ≠ .question) →
    plain (ternary (ts ++ rest)) = .ok (n, rest)

/-- The tokens are read as the beginning of a chain, which goes on with what follows. -/
def ReadsBinary (k : Nat) (ts : List Token) (n : Node) : Prop :=
  ∀ rest, Stops k rest → plain (binary (k + 1) (ts ++ rest)) = plain (chain k n rest)

/-- The tokens are read as this factor unless what follows makes a name into a call. -/
def ReadsFactor (ts : List Token) (n : Node) : Prop :=
  ∀ rest, Stops 0 rest → plain (factor (ts ++ rest)) = .ok (n, rest)

/-- A chain is all there is in front of looser operators. -/
theorem ReadsBinary.ends {k : Nat} {ts : List Token} {n : Node} (h : ReadsBinary k ts n)
    {rest : List Token} (hr : Stops (k + 1) rest) :
    plain (binary (k + 1) (ts ++ rest)) = .ok (n, rest) :=
  (h rest (hr.mono (Nat.le_succ k))).trans (plain_chain_of_stops n hr)

theorem ReadsBinary.conditional {ts us vs : List Token} {question colon : Token}
    {condition yes no : Node} (hc : ReadsBinary binaryLevels.length ts condition)
    (hquestion : question.kind = .question) (hyes : ReadsTernary us yes)
    (hcolon : colon.kind = .colon) (hno : ReadsTernary vs no) :
    ReadsTernary (ts ++ question :: (us ++ colon :: vs))
      ⟨.ternary, some "?", [condition, yes, no]⟩ := by
  intro rest hr hq
  have hcond : plain (binary levels (ts ++ question :: (us ++ colon :: (vs ++ rest)))) =
      .ok (condition, question :: (us ++ colon :: (vs ++ rest))) :=
    hc.ends (stops_of_level?_eq_none (by rw [hquestion]; decide) (by rw [hquestion]; rfl) _ _)
  have hy : plain (ternary (us ++ colon :: (vs ++ rest))) = .ok (yes, colon :: (vs ++ rest)) :=
    hyes _ (stops_of_level?_eq_none (by rw [hcolon]; decide) (by rw [hcolon]; rfl) _ _)
      (by intro t ht; cases ht; rw [hcolon]; decide)
  have happend : ts ++ question :: (us ++ colon :: vs) ++ rest =
      ts ++ question :: (us ++ colon :: (vs ++ rest)) := by
    simp
  rw [happend, plain_ternary, hcond]
  show afterCondition condition (question :: (us ++ colon :: (vs ++ rest))) = _
  rw [afterCondition, if_pos hquestion, hy]
  show (if colon.kind = .colon then _ else _) = _
  rw [if_pos hcolon, hno rest hr hq]
  rfl

theorem ReadsBinary.operation {k : Nat} {ts us : List Token} {op : Token} {left right : Node}
    (hl : ReadsBinary k ts left) (hop : level? op.kind = some k)
    (hr : ∀ rest, Stops k rest → plain (binary k (us ++ rest)) = .ok (right, rest)) :
    ReadsBinary k (ts ++ op :: us) (binaryNode op left right) := by
  intro rest hs
  rw [List.append_assoc, List.cons_append, hl _ (stops_of_level? hop _), plain_chain_cons,
    if_pos hop, hr rest hs]
  rfl

theorem ReadsTernary.closes {ts : List Token} {n : Node} (h : ReadsTernary ts n)
    {closing : Token} (hc : closing.kind = .rightParen) (rest : List Token) :
    (plain (ternary (ts ++ closing :: rest))).bind (fun (inner, rest) => afterInner inner rest) =
      .ok (n, rest) := by
  have hread : plain (ternary (ts ++ closing :: rest)) = .ok (n, closing :: rest) :=
    h _ (stops_of_level?_eq_none (by rw [hc]; decide) (by rw [hc]; rfl) _ _)
      (by intro t ht; cases ht; rw [hc]; decide)
  rw [hread]
  show (if closing.kind = .rightParen then _ else _) = _
  rw [if_pos hc]

theorem readsFactor_number {t : Token} (ht : t.kind = .number) :
    ReadsFactor [t] ⟨.number, t.text, []⟩ := by
  intro rest _
  rw [List.cons_append, plain_factor_cons, if_pos ht]
  rfl

theorem plain_factor_name {t : Token} (ht : t.kind = .name) (rest : List Token) :
    plain (factor (t :: rest)) = afterName t rest := by
  rw [plain_factor_cons]
  simp [ht, isUnary]

theorem readsFactor_name {t : Token} (ht : t.kind = .name) :
    ReadsFactor [t] ⟨.string, t.text, []⟩ := by
  intro rest hr
  rw [List.cons_append, List.nil_append, plain_factor_name ht]
  cases rest with
  | nil => rfl
  | cons t' rest => rw [afterName, if_neg (hr t' rfl).1]

theorem ReadsTernary.call {t opening closing : Token} {ts : List Token} {argument : Node}
    (ht : t.kind = .name) (ho : opening.kind = .leftParen) (h : ReadsTernary ts argument)
    (hc : closing.kind = .rightParen) :
    ReadsFactor (t :: opening :: (ts ++ [closing])) ⟨.call, t.text, [argument]⟩ := by
  intro rest _
  have hinner := h.closes hc rest
  rw [List.cons_append, List.cons_append, List.append_assoc, plain_factor_name ht, afterName,
    if_pos ho]
  show (plain (ternary (ts ++ closing :: rest))).bind _ = _
  cases hr : plain (ternary (ts ++ closing :: rest)) with
  | error e => rw [hr] at hinner; cases hinner
  | ok r =>
    rw [hr] at hinner
    show (afterInner r.1 r.2).map _ = _
    rw [show afterInner r.1 r.2 = .ok (argument, rest) from hinner]
    rfl

theorem plain_factor_unary {t : Token} (ht : t.kind ∈ unaryOperators) (rest : List Token) :
    plain (factor (t :: rest)) =
      (plain (factor rest)).map fun (operand, rest) => (⟨.unary, t.text, [operand]⟩, rest) := by
  have hne : t.kind ≠ .number := by
    intro hn
    rw [hn] at ht
    exact absurd ht (by decide)
  rw [plain_factor_cons, if_neg hne, if_pos (isUnary_iff.2 ht)]

theorem ReadsFactor.unary {t : Token} {ts : List Token} {operand : Node}
    (ht : t.kind ∈ unaryOperators) (h : ReadsFactor ts operand) :
    ReadsFactor (t :: ts) ⟨.unary, t.text, [operand]⟩ := by
  intro rest hr
  rw [List.cons_append, plain_factor_unary ht, h rest hr]
  rfl

theorem plain_factor_opening {t : Token} (ht : t.kind = .leftParen) (rest : List Token) :
    plain (factor (t :: rest)) =
      (plain (ternary rest)).bind fun (inner, rest) => afterInner inner rest := by
  rw [plain_factor_cons]
  simp [ht, isUnary]

theorem ReadsTernary.parentheses {opening closing : Token} {ts : List Token} {n : Node}
    (ho : opening.kind = .leftParen) (h : ReadsTernary ts n) (hc : closing.kind = .rightParen) :
    ReadsFactor (opening :: (ts ++ [closing])) n := by
  intro rest _
  rw [List.cons_append, List.append_assoc]
  exact (plain_factor_opening ho _).trans (h.closes hc rest)

theorem readsFactor_empty {opening closing : Token}
    (h : (opening.kind, closing.kind) ∈ literalDelimiters) :
    ReadsFactor [opening, closing] ⟨.quoted, some "", []⟩ := by
  intro rest _
  obtain ⟨hs, hf⟩ := plain_factor_literal h (closing :: rest)
  exact hf.trans (plain_literal_empty rfl hs rest)

theorem readsFactor_literal {opening t closing : Token}
    (h : (opening.kind, closing.kind) ∈ literalDelimiters) (ht : t.kind = .string) :
    ReadsFactor [opening, t, closing] ⟨.quoted, some (t.text.getD ""), []⟩ := by
  intro rest _
  obtain ⟨-, hf⟩ := plain_factor_literal h (t :: closing :: rest)
  exact hf.trans (plain_literal_string ht rfl rest)

theorem ne_power_of_level? {kind : Token.Kind} {k : Nat} (h : level? kind = some (k + 1)) :
    kind ≠ .power := by
  rintro rfl
  cases h

mutual

/-- What the grammar derives is read, and the tree is the derived one. -/
theorem Ternary.reads {ts : List Token} {n : Node} : Ternary ts n → ReadsTernary ts n
  | .chain h => by
    intro rest hr hq
    rw [plain_ternary, show plain (binary levels (ts ++ rest)) = _ from h.reads.ends hr]
    exact afterCondition_of_ne hq
  | .conditional hc hquestion hyes hcolon hno =>
    hc.reads.conditional hquestion hyes.reads hcolon hno.reads

theorem Binary.reads {k : Nat} {ts : List Token} {n : Node} : Binary k ts n → ReadsBinary k ts n
  | .factor h => by
    intro rest hr
    rw [plain_binary_succ, plain_binary_zero, h.reads rest hr]
    rfl
  | .power hl hop hr => by
    have := hl.reads.operation (by rw [hop]; rfl) fun rest hs =>
      (plain_binary_zero _).trans (hr.reads rest hs)
    rwa [binaryNode, if_pos hop] at this
  | .tighter h => by
    intro rest hr
    rw [plain_binary_succ, h.reads.ends hr]
    rfl
  | .operation hl hk hop hr => by
    have hlevel := level?_of_mem hk hop
    have := hl.reads.operation hlevel fun rest hs => hr.reads.ends hs
    rwa [binaryNode, if_neg (ne_power_of_level? hlevel)] at this

theorem Factor.reads {ts : List Token} {n : Node} : Factor ts n → ReadsFactor ts n
  | .number ht => readsFactor_number ht
  | .name ht => readsFactor_name ht
  | .call ht ho h hc => h.reads.call ht ho hc
  | .unary ht h => h.reads.unary ht
  | .parentheses ho h hc => h.reads.parentheses ho hc
  | .empty hd => readsFactor_empty hd
  | .literal hd ht => readsFactor_literal hd ht

end

/-! ## Expressions -/

/-- The tree that the grammar gives the tokens in front of the first end of text. -/
def Derives (tokens : List Token) (tree : Node) : Prop :=
  Token.untilEnd tokens = [] ∧ tree = ⟨.number, some "0", []⟩ ∨
    Ternary (Token.untilEnd tokens) tree

/-- Nothing has to follow. -/
theorem Ternary.reads_all {ts : List Token} {n : Node} (h : Ternary ts n) :
    plain (ternary ts) = .ok (n, []) := by
  have hnone : ∀ t : Token, t ∉ ([] : List Token).head? := by
    intro t ht
    cases ht
  have hread := h.reads [] (fun t ht => absurd ht (hnone t)) fun t ht => absurd ht (hnone t)
  rwa [List.append_nil] at hread

theorem not_ternary_nil (n : Node) : ¬ Ternary [] n := by
  intro h
  have hread := h.reads_all
  exact absurd (plain_ok hread) (Nat.not_lt_zero _)

theorem expressionOfTokens_of_ne_nil {tokens : List Token} (h : Token.untilEnd tokens ≠ []) :
    expressionOfTokens tokens = (plain (ternary (Token.untilEnd tokens))).bind fun
      | (node, []) => .ok node
      | (_, t :: _) =>
        if t.kind = .rightParen then .error (.parentheses .tooManyClosing (some .rightParen) none)
        else .error (.parse .unexpectedInExpression (some t.kind) (some .endOfText)) := by
  rw [expressionOfTokens, expressionOfTokensOn.eq_def]
  split
  · contradiction
  · show Except.bind (ternary (Token.untilEnd tokens)) _ = _
    cases ternary (Token.untilEnd tokens) with
    | error e => rfl
    | ok r =>
      obtain ⟨node, rest, hlt⟩ := r
      cases rest with
      | nil => rfl
      | cons t rest => rfl

theorem derives_of_expressionOfTokens {tokens : List Token} {tree : Node}
    (h : expressionOfTokens tokens = .ok tree) : Derives tokens tree := by
  by_cases hnil : Token.untilEnd tokens = []
  · rw [expressionOfTokens_of_nothing hnil] at h
    cases h
    exact .inl ⟨hnil, rfl⟩
  · rw [expressionOfTokens_of_ne_nil hnil] at h
    have hs := ternary_sound (Token.untilEnd tokens)
    cases hr : plain (ternary (Token.untilEnd tokens)) with
    | error e => rw [hr] at h; cases h
    | ok r =>
      obtain ⟨node, rest⟩ := r
      rw [hr] at h hs
      obtain ⟨used, hused, hd⟩ := hs
      cases rest with
      | nil =>
        cases h
        right
        rw [hused, List.append_nil]
        exact hd
      | cons t rest =>
        have hfail : (if t.kind = .rightParen then _ else _) = Except.ok tree := h
        split at hfail <;> cases hfail

theorem expressionOfTokens_of_derives {tokens : List Token} {tree : Node}
    (h : Derives tokens tree) : expressionOfTokens tokens = .ok tree := by
  rcases h with ⟨hnil, rfl⟩ | ht
  · exact expressionOfTokens_of_nothing hnil
  · have hne : Token.untilEnd tokens ≠ [] := by
      intro hnil
      rw [hnil] at ht
      exact not_ternary_nil tree ht
    rw [expressionOfTokens_of_ne_nil hne, ht.reads_all]
    rfl

theorem family_of_expressionOfTokens {tokens : List Token} {e : Error}
    (h : expressionOfTokens tokens = .error e) : e.family ∈ [.parse, .parentheses] := by
  by_cases hnil : Token.untilEnd tokens = []
  · rw [expressionOfTokens_of_nothing hnil] at h
    cases h
  · rw [expressionOfTokens_of_ne_nil hnil] at h
    have hs := ternary_sound (Token.untilEnd tokens)
    cases hr : plain (ternary (Token.untilEnd tokens)) with
    | error e' =>
      rw [hr] at h hs
      cases h
      exact hs
    | ok r =>
      obtain ⟨node, rest⟩ := r
      rw [hr] at h
      cases rest with
      | nil => cases h
      | cons t rest =>
        have hfail : (if t.kind = .rightParen then _ else _) = Except.error e := h
        split at hfail <;> cases hfail <;> simp [Error.family]

/-- Tokens are read as the tree that the grammar derives, which is unique; tokens that derive
nothing are an error of syntax or of parentheses. -/
theorem expressionOfTokens_grammar (tokens : List Token) :
    (∀ tree, expressionOfTokens tokens = .ok tree ↔ Derives tokens tree) ∧
    (∀ tree tree', Derives tokens tree → Derives tokens tree' → tree = tree') ∧
    ((∀ tree, ¬ Derives tokens tree) →
      ∃ e, expressionOfTokens tokens = .error e ∧ e.family ∈ [.parse, .parentheses]) := by
  refine ⟨fun tree => ⟨derives_of_expressionOfTokens, expressionOfTokens_of_derives⟩, ?_, ?_⟩
  · intro tree tree' h h'
    have := (expressionOfTokens_of_derives h).symm.trans (expressionOfTokens_of_derives h')
    exact Except.ok.inj this
  · intro hnone
    cases he : expressionOfTokens tokens with
    | error e => exact ⟨e, rfl, family_of_expressionOfTokens he⟩
    | ok tree => exact absurd (derives_of_expressionOfTokens he) (hnone tree)

end Tickle.Tree
