import Tickle.Proofs.Tree.ExpressionGrammar

/-! # What errors of parentheses mean

Parentheses are blamed in three places: a closing one where an operand has to stand, a closing one
behind a whole expression, and the end of the text inside a group. No place counts. Along the
recursion of the reader, what has been read is neutral for a count, so the last two places are
reached only if the parentheses do not pair up. The first place is reached exactly if a parenthesis
closes where the grammar goes on with an operand, and that says nothing about their number. -/

namespace Tickle.Tree

/-! ## Counting -/

/-- How many parentheses are open behind the tokens if `depth` are open in front of them; there is
no answer if one is closed that was not open. -/
def openAfter (depth : Nat) : List Token → Option Nat
  | [] => some depth
  | t :: rest =>
    if t.kind = .leftParen then openAfter (depth + 1) rest
    else if t.kind = .rightParen then
      if depth = 0 then none else openAfter (depth - 1) rest
    else openAfter depth rest

/-- Parentheses are properly nested, and as many are closed as are opened. -/
def Paired (tokens : List Token) : Prop := openAfter 0 tokens = some 0

instance : DecidablePred Paired := fun _ => inferInstanceAs (Decidable (_ = some 0))

/-- The tokens change no count. -/
def Neutral (ts : List Token) : Prop :=
  ∀ depth rest, openAfter depth (ts ++ rest) = openAfter depth rest

/-- Behind the tokens at least as many parentheses are open as in front of them. -/
def KeepsOpen (ts : List Token) : Prop :=
  ∀ depth, ∃ inner, depth ≤ inner ∧ ∀ rest, openAfter depth (ts ++ rest) = openAfter inner rest

theorem neutral_nil : Neutral [] := fun _ _ => rfl

theorem neutral_single {t : Token} (h : t.kind ∉ [.leftParen, .rightParen]) : Neutral [t] := by
  intro depth rest
  have hne : t.kind ≠ .leftParen ∧ t.kind ≠ .rightParen := by simpa using h
  rw [List.cons_append, openAfter, if_neg hne.1, if_neg hne.2, List.nil_append]

theorem Neutral.append {ts us : List Token} (ht : Neutral ts) (hu : Neutral us) :
    Neutral (ts ++ us) := by
  intro depth rest
  rw [List.append_assoc, ht, hu]

/-- Tokens on both sides of one that is no parenthesis. -/
theorem Neutral.around {ts us : List Token} {t : Token} (ht : Neutral ts)
    (h : t.kind ∉ [.leftParen, .rightParen]) (hu : Neutral us) : Neutral (ts ++ t :: us) :=
  ht.append ((neutral_single h).append hu)

theorem openAfter_opening {t : Token} (h : t.kind = .leftParen) (depth : Nat)
    (rest : List Token) : openAfter depth (t :: rest) = openAfter (depth + 1) rest := by
  rw [openAfter, if_pos h]

theorem Neutral.enclosed {ts : List Token} {opening closing : Token} (h : Neutral ts)
    (ho : opening.kind = .leftParen) (hc : closing.kind = .rightParen) :
    Neutral (opening :: (ts ++ [closing])) := by
  intro depth rest
  rw [List.cons_append, openAfter_opening ho, List.append_assoc, h, List.cons_append, openAfter]
  simp [hc]

theorem Neutral.keepsOpen {ts : List Token} (h : Neutral ts) : KeepsOpen ts :=
  fun depth => ⟨depth, Nat.le_refl depth, h depth⟩

theorem keepsOpen_opening {t : Token} (h : t.kind = .leftParen) : KeepsOpen [t] :=
  fun depth => ⟨depth + 1, Nat.le_succ depth, openAfter_opening h depth⟩

theorem KeepsOpen.append {ts us : List Token} (ht : KeepsOpen ts) (hu : KeepsOpen us) :
    KeepsOpen (ts ++ us) := by
  intro depth
  obtain ⟨inner, hinner, htokens⟩ := ht depth
  obtain ⟨innermost, hinnermost, hutokens⟩ := hu inner
  refine ⟨innermost, Nat.le_trans hinner hinnermost, fun rest => ?_⟩
  rw [List.append_assoc, htokens, hutokens]

theorem not_parenthesis_of_level? {kind : Token.Kind} {k : Nat} (h : level? kind = some k) :
    kind ∉ [.leftParen, .rightParen] := by
  cases kind <;> cases h <;> decide

theorem not_parenthesis_of_mem_literalDelimiters {p : Token.Kind × Token.Kind}
    (h : p ∈ literalDelimiters) :
    p.1 ∉ [.leftParen, .rightParen] ∧ p.2 ∉ [.leftParen, .rightParen] := by
  have hall : ∀ p ∈ literalDelimiters,
      p.1 ∉ [.leftParen, .rightParen] ∧ p.2 ∉ [.leftParen, .rightParen] := by decide
  exact hall p h

theorem not_parenthesis_of_mem_unaryOperators {kind : Token.Kind} (h : kind ∈ unaryOperators) :
    kind ∉ [.leftParen, .rightParen] := by
  have hall : ∀ kind ∈ unaryOperators, kind ∉ [.leftParen, .rightParen] := by decide
  exact hall kind h

mutual

/-- What the grammar derives has paired parentheses, whatever stands around it. -/
theorem Ternary.neutral {ts : List Token} {n : Node} : Ternary ts n → Neutral ts
  | .chain h => h.neutral
  | .conditional hc hquestion hyes hcolon hno =>
    hc.neutral.around (by simp [hquestion]) (hyes.neutral.around (by simp [hcolon]) hno.neutral)

theorem Binary.neutral {k : Nat} {ts : List Token} {n : Node} : Binary k ts n → Neutral ts
  | .factor h => h.neutral
  | .power hl hop hr => hl.neutral.around (by simp [hop]) hr.neutral
  | .tighter h => h.neutral
  | .operation hl hk hop hr =>
    hl.neutral.around (not_parenthesis_of_level? (level?_of_mem hk hop)) hr.neutral

theorem Factor.neutral {ts : List Token} {n : Node} : Factor ts n → Neutral ts
  | .number ht => neutral_single (by simp [ht])
  | .name ht => neutral_single (by simp [ht])
  | .call ht ho h hc => (neutral_single (by simp [ht])).append (h.neutral.enclosed ho hc)
  | .unary ht h =>
    (neutral_single (not_parenthesis_of_mem_unaryOperators ht)).append h.neutral
  | .parentheses ho h hc => h.neutral.enclosed ho hc
  | .empty hd =>
    have hne := not_parenthesis_of_mem_literalDelimiters hd
    (neutral_single hne.1).append (neutral_single hne.2)
  | .literal hd ht =>
    have hne := not_parenthesis_of_mem_literalDelimiters hd
    (neutral_single hne.1).around (by simp [ht]) (neutral_single hne.2)

end

theorem AtLevel.neutral {k : Nat} {ts : List Token} {n : Node} (h : AtLevel k ts n) :
    Neutral ts := by
  cases k with
  | zero => exact Factor.neutral h
  | succ k => exact Binary.neutral h

/-! ## Operands that are missing -/

/-- The grammar goes on with an operand behind these tokens: a number may stand there. -/
def Awaits (D : List Token → Node → Prop) (front : List Token) : Prop :=
  ∃ (number : Token) (back : List Token) (n : Node),
    number.kind = .number ∧ D (front ++ number :: back) n

/-- A parenthesis closes where an operand has to stand. -/
def ClosesEarly (D : List Token → Node → Prop) (tokens : List Token) : Prop :=
  ∃ (front back : List Token) (closing : Token),
    tokens = front ++ closing :: back ∧ closing.kind = .rightParen ∧ Awaits D front

/-- A phrase behind these tokens is the beginning of a larger phrase. -/
def Begins (D D' : List Token → Node → Prop) (front : List Token) : Prop :=
  ∀ ts n, D ts n → ∃ more n', D' (front ++ ts ++ more) n'

theorem Awaits.behind {D D' : List Token → Node → Prop} {front ts : List Token}
    (h : Awaits D ts) (hD : Begins D D' front) : Awaits D' (front ++ ts) := by
  obtain ⟨number, back, n, hnumber, hd⟩ := h
  obtain ⟨more, n', hd'⟩ := hD _ n hd
  refine ⟨number, back ++ more, n', hnumber, ?_⟩
  simpa using hd'

/-! ## Where parentheses are blamed -/

/-- Why parentheses are blamed while a phrase is read: one closes where an operand has to stand, or
one is still open at the end. -/
def Blamed (D : List Token → Node → Prop) (tokens : List Token) : Prop :=
  ClosesEarly D tokens ∨
    ∀ depth, ∃ inner, depth < inner ∧ openAfter depth tokens = some inner

/-- If reading fails because of parentheses, they are blamed for a reason. -/
def Explained (D : List Token → Node → Prop) (tokens : List Token)
    (r : Except Error (Node × List Token)) : Prop :=
  ∀ e, r = .error e → e.family = .parentheses → Blamed D tokens

/-- What is blamed inside a phrase is blamed in the phrase around it. -/
theorem Blamed.lift {D D' : List Token → Node → Prop} {front tokens : List Token}
    (h : Blamed D tokens) (hopen : KeepsOpen front) (hD : Begins D D' front) :
    Blamed D' (front ++ tokens) := by
  rcases h with ⟨early, back, closing, rfl, hclosing, hawaits⟩ | hinside
  · refine .inl ⟨front ++ early, back, closing, ?_, hclosing, hawaits.behind hD⟩
    rw [List.append_assoc]
  · right
    intro depth
    obtain ⟨inner, hle, hfront⟩ := hopen depth
    obtain ⟨innermost, hlt, htokens⟩ := hinside inner
    exact ⟨innermost, Nat.lt_of_le_of_lt hle hlt, (hfront tokens).trans htokens⟩

theorem explained_ok {D : List Token → Node → Prop} {tokens : List Token}
    (r : Node × List Token) : Explained D tokens (.ok r) := by
  intro e he
  cases he

theorem explained_parse {D : List Token → Node → Prop} {tokens : List Token} (fault : ParseFault)
    (found expected : Option Token.Kind) :
    Explained D tokens (.error (.parse fault found expected)) := by
  intro e he hfamily
  cases he
  cases hfamily

/-- A reader that goes on with what another one left. -/
theorem Explained.bind {D D' : List Token → Node → Prop} {tokens : List Token}
    {r : Except Error (Node × List Token)}
    {f : Node × List Token → Except Error (Node × List Token)} (front : List Token)
    (hs : Sound D tokens r) (h : Explained D tokens r) (hopen : KeepsOpen front)
    (hD : Begins D D' front)
    (hf : ∀ node used rest, r = .ok (node, rest) → D used node →
      Explained D' (front ++ used ++ rest) (f (node, rest))) :
    Explained D' (front ++ tokens) (r.bind f) := by
  intro e he hfamily
  match r, hs, h with
  | .ok (node, rest), ⟨used, ht, hd⟩, _ =>
    have hafter := hf node used rest rfl hd e he hfamily
    rwa [List.append_assoc, ← ht] at hafter
  | .error e', _, h =>
    cases he
    exact (h e rfl hfamily).lift hopen hD

theorem Explained.map {D D' : List Token → Node → Prop} {tokens : List Token}
    {r : Except Error (Node × List Token)} (front : List Token)
    (f : Node × List Token → Node × List Token)
    (h : Explained D tokens r) (hopen : KeepsOpen front) (hD : Begins D D' front) :
    Explained D' (front ++ tokens) (r.map f) := by
  intro e he hfamily
  cases r with
  | ok r => cases he
  | error e' =>
    cases he
    exact (h e rfl hfamily).lift hopen hD

theorem closeLiteral_explained {D : List Token → Node → Prop} {all : List Token}
    (close : Token.Kind) (text : String) (tokens : List Token) :
    Explained D all (plain (closeLiteral close text tokens)) := by
  cases tokens with
  | nil => exact explained_parse _ _ _
  | cons t rest =>
    rw [closeLiteral]
    split
    · exact explained_ok _
    · exact explained_parse _ _ _

theorem literal_explained {D : List Token → Node → Prop} {all : List Token} (close : Token.Kind)
    (tokens : List Token) : Explained D all (plain (literal close tokens)) := by
  cases tokens with
  | nil => exact closeLiteral_explained close "" []
  | cons t rest =>
    rw [literal]
    split
    · intro e he
      refine closeLiteral_explained (D := D) close (t.text.getD "") rest e ?_
      cases hr : closeLiteral close (t.text.getD "") rest with
      | ok r => rw [hr] at he; cases he
      | error e' => rw [hr] at he; exact he
    · exact closeLiteral_explained close "" (t :: rest)

theorem afterInner_explained {D : List Token → Node → Prop} {opening : Token}
    {used : List Token} (front : List Token) (inner : Node) (hfront : Neutral front)
    (ho : opening.kind = .leftParen) (hused : Neutral used) (rest : List Token) :
    Explained D (front ++ opening :: used ++ rest) (afterInner inner rest) := by
  cases rest with
  | nil =>
    intro e _ _
    right
    intro depth
    refine ⟨depth + 1, Nat.lt_succ_self depth, ?_⟩
    rw [List.append_assoc, hfront, List.cons_append, openAfter_opening ho, hused]
    rfl
  | cons t rest =>
    rw [afterInner]
    split
    · exact explained_ok _
    · exact explained_parse _ _ _

/-- An operand is an expression. -/
theorem Factor.ternary {ts : List Token} {n : Node} (h : Factor ts n) : Ternary ts n := by
  have hchain : ∀ k, Binary k ts n := by
    intro k
    induction k with
    | zero => exact .factor h
    | succ k ih => exact .tighter ih
  exact .chain (hchain _)

/-- A token of a given kind. -/
def sample (kind : Token.Kind) : Token := ⟨kind, none, 0⟩

mutual

theorem ternary_explained (tokens : List Token) :
    Explained Ternary tokens (plain (ternary tokens)) := by
  rw [plain_ternary]
  refine Explained.bind [] (binary_sound levels tokens) (binary_explained levels tokens)
    neutral_nil.keepsOpen ?_ fun condition used rest hr hd => ?_
  · exact fun ts n hts => ⟨[], n, by simpa using Ternary.chain hts⟩
  have hlt := plain_ok hr
  cases rest with
  | nil => exact explained_ok _
  | cons t rest =>
    simp only [afterCondition]
    split
    · rename_i ht
      have hfront : Neutral (used ++ [t]) := hd.neutral.append (neutral_single (by simp [ht]))
      rw [List.nil_append, List.append_cons]
      refine Explained.bind _ (ternary_sound rest) (ternary_explained rest) hfront.keepsOpen ?_
        fun yes used₁ rest₁ hr₁ hd₁ => ?_
      · -- what may follow the branch is a colon and a number
        intro ts n hts
        have hno : Ternary [sample .number] ⟨.number, none, []⟩ := Factor.ternary (.number rfl)
        have hwhole := Ternary.conditional hd ht hts (rfl : (sample .colon).kind = .colon) hno
        exact ⟨[sample .colon, sample .number], _, by simpa using hwhole⟩
      have hlt₁ := plain_ok hr₁
      cases rest₁ with
      | nil => exact explained_parse _ _ _
      | cons t' rest₁ =>
        dsimp only
        split
        · rename_i ht'
          rw [List.append_cons]
          refine Explained.map _ _ (ternary_explained rest₁) ?_ ?_
          · exact ((hfront.append hd₁.neutral).append (neutral_single (by simp [ht']))).keepsOpen
          · intro ts n hts
            have hwhole := Ternary.conditional hd ht hd₁ ht' hts
            exact ⟨[], _, by simpa using hwhole⟩
        · exact explained_parse _ _ _
    · exact explained_ok _
termination_by (tokens.length, levels + 2)
decreasing_by
  · exact Prod.Lex.right _ (Nat.lt_succ_self _)
  · apply Prod.Lex.left
    simp only [List.length_cons] at hlt
    omega
  · apply Prod.Lex.left
    simp only [List.length_cons] at hlt hlt₁
    omega

theorem binary_explained (k : Nat) (tokens : List Token) :
    Explained (AtLevel k) tokens (plain (binary k tokens)) := by
  match k with
  | 0 =>
    rw [plain_binary_zero]
    exact factor_explained tokens
  | k + 1 =>
    rw [plain_binary_succ]
    refine Explained.bind [] (binary_sound k tokens) (binary_explained k tokens)
      neutral_nil.keepsOpen ?_ fun left used rest hr hd => ?_
    · exact fun ts n hts => ⟨[], n, by simpa using hts.tighter⟩
    · have hlt := plain_ok hr
      exact chain_explained k left rest used hd.tighter
termination_by (tokens.length, k + 1)
decreasing_by
  · exact Prod.Lex.right _ (Nat.lt_succ_self _)
  · exact Prod.Lex.right _ (Nat.lt_succ_self _)
  · exact Prod.Lex.left _ _ hlt

theorem chain_explained (k : Nat) (left : Node) (tokens front : List Token)
    (h : AtLevel (k + 1) front left) :
    Explained (AtLevel (k + 1)) (front ++ tokens) (plain (chain k left tokens)) := by
  match tokens with
  | [] =>
    rw [plain_chain_nil]
    exact explained_ok _
  | op :: rest =>
    rw [plain_chain_cons]
    split
    · rename_i hop
      have hfront : Neutral (front ++ [op]) :=
        h.neutral.append (neutral_single (not_parenthesis_of_level? hop))
      rw [List.append_cons]
      refine Explained.bind _ (binary_sound k rest) (binary_explained k rest) hfront.keepsOpen ?_
        fun right used rest₁ hr hd => ?_
      · intro ts n hts
        exact ⟨[], _, by simpa using h.operation hop hts⟩
      · have hlt := plain_ok hr
        refine chain_explained k (binaryNode op left right) rest₁ _ ?_
        simpa using h.operation hop hd
    · exact explained_ok _
termination_by (tokens.length, 0)
decreasing_by
  · exact Prod.Lex.left _ _ (Nat.lt_succ_self _)
  · exact Prod.Lex.left _ _ (Nat.lt_succ_of_lt hlt)

theorem factor_explained (tokens : List Token) :
    Explained Factor tokens (plain (factor tokens)) := by
  match tokens with
  | [] =>
    rw [plain_factor_nil]
    exact explained_parse _ _ _
  | t :: rest =>
    rw [plain_factor_cons]
    split
    · exact explained_ok _
    split
    · rename_i ht
      have hunary := isUnary_iff.1 ht
      refine Explained.map [t] _ (factor_explained rest)
        (neutral_single (not_parenthesis_of_mem_unaryOperators hunary)).keepsOpen ?_
      exact fun ts n hts => ⟨[], _, by simpa using Factor.unary hunary hts⟩
    split
    · rename_i ht
      refine Explained.bind [t] (ternary_sound rest) (ternary_explained rest)
        (keepsOpen_opening ht) ?_ fun inner used rest₁ hr hd => ?_
      · exact fun ts n hts =>
          ⟨[sample .rightParen], n, Factor.parentheses ht hts (rfl : (sample .rightParen).kind = _)⟩
      · exact afterInner_explained [] inner neutral_nil ht hd.neutral rest₁
    split
    · rename_i ht
      intro e _ _
      exact .inl ⟨[], rest, t, rfl, ht, sample .number, [], _, rfl, Factor.number rfl⟩
    split
    · exact literal_explained _ _
    split
    · exact literal_explained _ _
    split
    · rename_i ht
      match rest with
      | [] => exact explained_ok _
      | t' :: rest =>
        rw [afterName]
        split
        · rename_i ht'
          have hname : Neutral [t] := neutral_single (by simp [ht])
          refine Explained.bind [t, t'] (ternary_sound rest) (ternary_explained rest)
            (hname.keepsOpen.append (keepsOpen_opening ht')) ?_ fun argument used rest₁ hr hd => ?_
          · exact fun ts n hts => ⟨[sample .rightParen], _,
              Factor.call ht ht' hts (rfl : (sample .rightParen).kind = _)⟩
          · exact Explained.map [] _
              (afterInner_explained [t] argument hname ht' hd.neutral rest₁)
              neutral_nil.keepsOpen fun ts n hts => ⟨[], n, by simpa using hts⟩
        · exact explained_ok _
    · exact explained_parse _ _ _
termination_by (tokens.length, 0)
decreasing_by
  · exact Prod.Lex.left _ _ (Nat.lt_succ_of_lt (Nat.lt_succ_self _))
  · exact Prod.Lex.left _ _ (Nat.lt_succ_self _)
  · exact Prod.Lex.left _ _ (Nat.lt_succ_self _)

end

end Tickle.Tree
