import Tickle.Proofs.Failure

/-! # The grammar of scripts

Derivations of commands from tokens. An operand is a row of fragments without a blank between them;
a command ends in front of the end of a line, of a semicolon, or at the end of the tokens. The
reader accepts exactly what can be derived. -/

namespace Tickle.Tree

/-- Nodes of the region between an opening and a closing token. -/
inductive Enclosed : Token.Kind → String → Token.Kind → List Node → Prop
  | braces (text : String) : Enclosed .leftBrace text .rightBrace [⟨.string, some text, []⟩]
  | brackets (text : String) : Enclosed .leftBracket text .rightBracket [⟨.program, some text, []⟩]
  | quotes {text : String} {nodes : List Node} :
    fragments (Token.untilEnd (Token.Substitution.tokens text)) = .ok nodes →
    Enclosed .leftQuote text .rightQuote (quotedNodes nodes)

/-- Operands, behind those fragments of the first one that have been read, and the tokens that are
left at the end of the command. -/
inductive Operands : List Node → List Token → List Node → List Token → Prop
  | done {current : List Node} : Operands current [] (operandOf current) []
  | stop {current : List Node} {t : Token} {rest : List Token} : endsCommand t.kind = true →
    Operands current (t :: rest) (operandOf current) (t :: rest)
  | blank {current more : List Node} {t : Token} {rest left : List Token} : t.kind = .blank →
    Operands [] rest more left → Operands current (t :: rest) (operandOf current ++ more) left
  | word {current more : List Node} {t : Token} {rest left : List Token} : t.kind = .word →
    Operands (current ++ [⟨.word, t.text, []⟩]) rest more left →
    Operands current (t :: rest) more left
  | reference {current more : List Node} {dollar name : Token} {rest left : List Token} :
    dollar.kind = .dollar → name.kind = .name →
    Operands (current ++ [⟨.name, name.text, []⟩]) rest more left →
    Operands current (dollar :: name :: rest) more left
  | region {current nodes more : List Node} {opening text closing : Token}
    {rest left : List Token} : text.kind = .string →
    Enclosed opening.kind (text.text.getD "") closing.kind nodes →
    Operands (current ++ nodes) rest more left →
    Operands current (opening :: text :: closing :: rest) more left

/-- Commands in a row. -/
inductive Commands : List Token → List Node → Prop
  | nil : Commands [] []
  | separator {t : Token} {rest : List Token} {nodes : List Node} :
    separatesCommands t.kind = true → Commands rest nodes → Commands (t :: rest) nodes
  | command {t : Token} {rest left : List Token} {operands more : List Node} : t.kind = .word →
    endsCommandName (Token.kindAt rest) = true → Operands [] rest operands left →
    Commands left more → Commands (t :: rest) (⟨.command, t.text, operands⟩ :: more)

/-! ## What is read can be derived -/

theorem eq_cons_of_expect {kind : Token.Kind} {tokens : List Token} {t : Token}
    {rest : Token.After tokens} (h : expect kind tokens = .ok (t, rest)) :
    tokens = t :: rest.1 ∧ t.kind = kind := by
  cases tokens with
  | nil => cases h
  | cons t' rest' =>
    rw [expect] at h
    split at h
    · rename_i hk
      cases h
      exact ⟨rfl, hk⟩
    · cases h

theorem eq_cons_of_enclosed {close : Token.Kind} {tokens : List Token} {text : String}
    {rest : Token.After tokens} (h : enclosed close tokens = .ok (text, rest)) :
    ∃ inner closing, tokens = inner :: closing :: rest.1 ∧ inner.kind = .string ∧
      inner.text.getD "" = text ∧ closing.kind = close := by
  obtain ⟨⟨inner, rest₁⟩, h₁, h⟩ := exists_of_bind_eq_ok h
  obtain ⟨⟨closing, rest₂⟩, h₂, h⟩ := exists_of_bind_eq_ok h
  cases h
  obtain ⟨hinner, hkind⟩ := eq_cons_of_expect h₁
  obtain ⟨hclosing, hclose⟩ := eq_cons_of_expect h₂
  exact ⟨inner, closing, hinner.trans (congrArg (inner :: ·) hclosing), hkind, rfl, hclose⟩

/-- A region in front of operands. -/
theorem Operands.of_enclosed {opening : Token} {close : Token.Kind} {rest left : List Token}
    {text : String} {current nodes more : List Node} {rest' : Token.After rest}
    (h : enclosed close rest = .ok (text, rest')) (hnodes : Enclosed opening.kind text close nodes)
    (hmore : Operands (current ++ nodes) rest'.1 more left) :
    Operands current (opening :: rest) more left := by
  obtain ⟨inner, closing, hrest, hinner, rfl, rfl⟩ := eq_cons_of_enclosed h
  rw [hrest]
  exact .region hinner hnodes hmore

/-- A fragment in front of operands. -/
theorem Operands.of_fragment {t : Token} {rest left : List Token} {current nodes more : List Node}
    {rest' : Token.After (t :: rest)} (h : fragment t rest = .ok (nodes, rest'))
    (hmore : Operands (current ++ nodes) rest'.1 more left) :
    Operands current (t :: rest) more left := by
  unfold fragment at h
  split at h
  · rename_i hk
    cases h
    exact .word hk hmore
  · rename_i hk
    obtain ⟨⟨name, rest₁⟩, hname, h⟩ := exists_of_bind_eq_ok h
    cases h
    obtain ⟨hrest, hkind⟩ := eq_cons_of_expect hname
    rw [hrest]
    exact .reference hk hkind hmore
  · rename_i hk
    obtain ⟨⟨text, rest₁⟩, htext, h⟩ := exists_of_bind_eq_ok h
    cases h
    exact .of_enclosed htext (hk ▸ .braces text) hmore
  · rename_i hk
    obtain ⟨⟨text, rest₁⟩, htext, h⟩ := exists_of_bind_eq_ok h
    cases h
    exact .of_enclosed htext (hk ▸ .brackets text) hmore
  · rename_i hk
    obtain ⟨⟨text, rest₁⟩, htext, h⟩ := exists_of_bind_eq_ok h
    obtain ⟨nodes, hnodes, h⟩ := exists_of_bind_eq_ok h
    cases h
    exact .of_enclosed htext (hk ▸ .quotes hnodes) hmore
  · cases h

theorem Operands.of_operands {current nodes : List Node} {tokens : List Token}
    {left : { rest : List Token // rest.length ≤ tokens.length }}
    (h : operands current tokens = .ok (nodes, left)) : Operands current tokens nodes left.1 := by
  fun_induction operands current tokens generalizing nodes with
  | case1 =>
    cases h
    exact .done
  | case2 current t rest hend =>
    cases h
    exact .stop hend
  | case3 current t rest hend hblank ih =>
    obtain ⟨⟨more, rest'⟩, hmore, h⟩ := exists_of_bind_eq_ok h
    cases h
    exact .blank hblank (ih hmore)
  | case4 current t rest hend hblank ih =>
    obtain ⟨⟨nodes, rest'⟩, hfragment, h⟩ := exists_of_bind_eq_ok h
    obtain ⟨⟨more, rest''⟩, hmore, h⟩ := exists_of_bind_eq_ok h
    cases h
    exact .of_fragment hfragment (ih nodes rest' hmore)

theorem Commands.of_commands {tokens : List Token} {nodes : List Node}
    (h : commands tokens = .ok nodes) : Commands tokens nodes := by
  fun_induction commands tokens generalizing nodes with
  | case1 =>
    cases h
    exact .nil
  | case2 t rest hseparates ih => exact .separator hseparates (ih h)
  | case3 | case4 => cases h
  | case5 t rest hseparates hword hname ih =>
    obtain ⟨⟨values, rest'⟩, hvalues, h⟩ := exists_of_bind_eq_ok h
    obtain ⟨more, hmore, h⟩ := exists_of_bind_eq_ok h
    cases h
    have hkind : t.kind = .word := by simpa using hword
    exact .command hkind (by simpa using hname) (.of_operands hvalues) (ih rest' hmore)

/-! ## What can be derived is read -/

theorem expect_of_kind {kind : Token.Kind} {t : Token} (h : t.kind = kind) (rest : List Token) :
    expect kind (t :: rest) = .ok (t, .tail t rest) := by
  rw [expect, if_pos h]

theorem enclosed_of_kind {close : Token.Kind} {inner closing : Token}
    (hinner : inner.kind = .string) (hclosing : closing.kind = close) (rest : List Token) :
    enclosed close (inner :: closing :: rest) =
      .ok (inner.text.getD "", .trans (.tail inner (closing :: rest)) (.tail closing rest)) := by
  rw [enclosed, expect_of_kind hinner]
  change (expect close (closing :: rest) >>= _) = _
  rw [expect_of_kind hclosing]
  rfl

theorem Enclosed.exists_fragment {opening inner closing : Token} {nodes : List Node}
    (h : Enclosed opening.kind (inner.text.getD "") closing.kind nodes)
    (hinner : inner.kind = .string) (rest : List Token) :
    ∃ rest', fragment opening (inner :: closing :: rest) = .ok (nodes, rest') ∧ rest'.1 = rest := by
  generalize hopen : opening.kind = o at h
  generalize hclose : closing.kind = c at h
  unfold fragment
  cases h with
  | braces =>
    rw [hopen]
    dsimp only
    rw [enclosed_of_kind hinner hclose]
    exact ⟨_, rfl, rfl⟩
  | brackets =>
    rw [hopen]
    dsimp only
    rw [enclosed_of_kind hinner hclose]
    exact ⟨_, rfl, rfl⟩
  | @quotes text nodes hnodes =>
    rw [hopen]
    dsimp only
    rw [enclosed_of_kind hinner hclose]
    change ∃ rest', (fragments (Token.untilEnd (Token.Substitution.tokens (inner.text.getD ""))) >>=
      _) = .ok (_, rest') ∧ _
    rw [hnodes]
    exact ⟨_, rfl, rfl⟩

theorem Enclosed.opening {open' close : Token.Kind} {text : String} {nodes : List Node}
    (h : Enclosed open' text close nodes) : endsCommand open' = false ∧ open' ≠ .blank := by
  cases h <;> exact ⟨rfl, nofun⟩

/-- Operands whose first fragment is read. -/
theorem exists_operands_of_fragment {t : Token} {rest left : List Token}
    {current nodes more : List Node} {rest' : Token.After (t :: rest)}
    (hend : endsCommand t.kind = false) (hblank : t.kind ≠ .blank)
    (hfragment : fragment t rest = .ok (nodes, rest'))
    (hmore : ∃ r, operands (current ++ nodes) rest'.1 = .ok (more, r) ∧ r.1 = left) :
    ∃ r, operands current (t :: rest) = .ok (more, r) ∧ r.1 = left := by
  obtain ⟨r, heq, hleft⟩ := hmore
  rw [operands, hend, if_neg hblank, hfragment]
  change ∃ r, (operands (current ++ nodes) rest'.1 >>= _) = .ok (more, r) ∧ _
  rw [heq]
  exact ⟨_, rfl, hleft⟩

theorem Operands.operands_eq {current nodes : List Node} {tokens left : List Token}
    (h : Operands current tokens nodes left) :
    ∃ rest, operands current tokens = .ok (nodes, rest) ∧ rest.1 = left := by
  induction h with
  | done =>
    rw [operands]
    exact ⟨_, rfl, rfl⟩
  | stop hend =>
    rw [operands, if_pos hend]
    exact ⟨_, rfl, rfl⟩
  | blank hk hmore ih =>
    obtain ⟨rest', heq, hleft⟩ := ih
    rw [operands, hk, heq]
    exact ⟨_, rfl, hleft⟩
  | @word current more t rest left hk hmore ih =>
    have hfragment : fragment t rest = .ok ([⟨.word, t.text, []⟩], .tail t rest) := by
      simp only [fragment, hk]
    exact exists_operands_of_fragment (by rw [hk]; rfl) (by rw [hk]; decide) hfragment ih
  | @reference current more dollar name rest left hk hname hmore ih =>
    have hfragment : fragment dollar (name :: rest) =
        .ok ([⟨.name, name.text, []⟩], .weaken dollar (.tail name rest)) := by
      simp only [fragment, hk, expect_of_kind hname]
      rfl
    exact exists_operands_of_fragment (by rw [hk]; rfl) (by rw [hk]; decide) hfragment ih
  | @region current nodes more opening text closing rest left htext henclosed hmore ih =>
    obtain ⟨rest', hfragment, hrest⟩ := henclosed.exists_fragment htext rest
    rw [← hrest] at ih
    obtain ⟨hend, hblank⟩ := henclosed.opening
    exact exists_operands_of_fragment hend hblank hfragment ih

theorem Commands.commands_eq {tokens : List Token} {nodes : List Node} (h : Commands tokens nodes) :
    commands tokens = .ok nodes := by
  induction h with
  | nil => rw [commands]
  | separator hseparates hrest ih => rw [commands, if_pos hseparates, ih]
  | @command t rest left values more hword hname hvalues hmore ih =>
    obtain ⟨rest', heq, rfl⟩ := hvalues.operands_eq
    have hseparates : separatesCommands t.kind = false := by rw [hword]; rfl
    have hkind : ¬ t.kind ≠ .word := fun hne => hne hword
    rw [commands, hseparates, if_neg hkind, hname, heq]
    change (commands rest'.1 >>= _) = _
    rw [ih]
    rfl

/-- The reader accepts exactly the tokens from which commands can be derived. -/
theorem commands_eq_ok_iff {tokens : List Token} {nodes : List Node} :
    commands tokens = .ok nodes ↔ Commands tokens nodes :=
  ⟨.of_commands, Commands.commands_eq⟩

end Tickle.Tree
