import Tickle.Proofs.Token.NextLine
import Tickle.Proofs.Tree.ScriptGrammar

/-! # Scripts joined by a line end

A script followed by another one on the next line has the commands of both. The first may hold no
backslash, which could hide the end of its line, and no reference that runs on past its end. -/

namespace Tickle.Tree

open Token (Alike Complete)

/-! ## Derivations that go on -/

theorem Enclosed.needs_le {opening close : Token.Kind} {text : String} {nodes : List Node}
    (h : Enclosed opening text close nodes) : opening.needs ≤ 2 ∧ close.needs = 0 := by
  cases h <;> exact ⟨Nat.le_refl 2, rfl⟩

theorem Operands.complete {current nodes : List Node} {tokens left : List Token}
    (h : Operands current tokens nodes left) (hleft : Complete left) : Complete tokens := by
  induction h with
  | done | stop => exact hleft
  | blank hk _ ih | word hk _ ih => exact ⟨by simp [hk, Token.Kind.needs], ih hleft⟩
  | reference hk hname _ ih =>
    refine ⟨?_, ?_, ih hleft⟩
    · simp [hk, Token.Kind.needs]
    · simp [hname, Token.Kind.needs]
  | region htext henclosed _ ih =>
    obtain ⟨hopening, hclosing⟩ := henclosed.needs_le
    refine ⟨?_, ?_, ?_, ih hleft⟩
    · exact Nat.le_trans hopening (Nat.le_add_left 2 _)
    · simp [htext, Token.Kind.needs]
    · simp [hclosing]

/-- Tokens from which commands can be derived leave no region open. -/
theorem Commands.complete {tokens : List Token} {nodes : List Node} (h : Commands tokens nodes) :
    Complete tokens := by
  induction h with
  | nil => trivial
  | @separator t rest nodes hseparates _ ih =>
    have hneeds : t.kind.needs = 0 := by
      revert hseparates
      cases t.kind <;> simp [separatesCommands, Token.Kind.needs]
    exact ⟨by simp [hneeds], ih⟩
  | command hword _ hvalues _ ih => exact ⟨by simp [hword, Token.Kind.needs], hvalues.complete ih⟩

theorem Operands.of_alike {current nodes : List Node} {tokens left tokens' : List Token}
    (h : Operands current tokens nodes left) (hsame : List.Forall₂ Alike tokens tokens') :
    ∃ left', Operands current tokens' nodes left' ∧ List.Forall₂ Alike left left' := by
  induction h generalizing tokens' with
  | done =>
    cases hsame
    exact ⟨[], .done, .nil⟩
  | stop hend =>
    cases hsame with
    | cons ht hrest => exact ⟨_, .stop (ht.1 ▸ hend), .cons ht hrest⟩
  | blank hk _ ih =>
    cases hsame with
    | cons ht hrest =>
      obtain ⟨left', hmore, hleft⟩ := ih hrest
      exact ⟨left', .blank (ht.1 ▸ hk) hmore, hleft⟩
  | word hk _ ih =>
    cases hsame with
    | cons ht hrest =>
      obtain ⟨left', hmore, hleft⟩ := ih hrest
      rw [ht.2] at hmore
      exact ⟨left', .word (ht.1 ▸ hk) hmore, hleft⟩
  | reference hk hname _ ih =>
    cases hsame with
    | cons ht hrest =>
      cases hrest with
      | cons hn hrest =>
        obtain ⟨left', hmore, hleft⟩ := ih hrest
        rw [hn.2] at hmore
        exact ⟨left', .reference (ht.1 ▸ hk) (hn.1 ▸ hname) hmore, hleft⟩
  | region htext henclosed _ ih =>
    cases hsame with
    | cons ht hrest =>
      cases hrest with
      | cons hx hrest =>
        cases hrest with
        | cons hc hrest =>
          obtain ⟨left', hmore, hleft⟩ := ih hrest
          rw [ht.1, hx.2, hc.1] at henclosed
          exact ⟨left', .region (hx.1 ▸ htext) henclosed hmore, hleft⟩

theorem kindAt_of_alike {tokens tokens' : List Token} (h : List.Forall₂ Alike tokens tokens') :
    Token.kindAt tokens' = Token.kindAt tokens := by
  cases h with
  | nil => rfl
  | cons ht _ => exact ht.1.symm

/-- Where tokens stand in a text does not matter. -/
theorem Commands.of_alike {tokens tokens' : List Token} {nodes : List Node}
    (h : Commands tokens nodes) (hsame : List.Forall₂ Alike tokens tokens') :
    Commands tokens' nodes := by
  induction h generalizing tokens' with
  | nil =>
    cases hsame
    exact .nil
  | separator hseparates _ ih =>
    cases hsame with
    | cons ht hrest => exact .separator (ht.1 ▸ hseparates) (ih hrest)
  | command hword hname hvalues _ ih =>
    cases hsame with
    | cons ht hrest =>
      obtain ⟨left', hvalues', hleft⟩ := hvalues.of_alike hrest
      rw [ht.2]
      exact .command (ht.1 ▸ hword) (kindAt_of_alike hrest ▸ hname) hvalues' (ih hleft)

/-- Separators in front of commands are skipped. -/
theorem Commands.of_append {blanks tokens : List Token} {nodes : List Node}
    (hblanks : ∀ t ∈ blanks, t.kind = .blank ∨ t.kind = .lineEnd)
    (h : Commands (blanks ++ tokens) nodes) : Commands tokens nodes := by
  induction blanks with
  | nil => exact h
  | cons t blanks ih =>
    obtain ⟨ht, hblanks⟩ := List.forall_mem_cons.1 hblanks
    cases h with
    | separator _ hrest => exact ih hblanks hrest
    | command hword =>
      rcases ht with ht | ht <;> cases ht.symm.trans hword

/-! ## Commands of both scripts -/

theorem Enclosed.kinds_ne {opening close : Token.Kind} {text : String} {nodes : List Node}
    (h : Enclosed opening text close nodes) : opening ≠ .lineEnd ∧ close ≠ .lineEnd := by
  cases h <;> exact ⟨nofun, nofun⟩

/-- Operands that use up all tokens pass no end of a line. -/
theorem Operands.not_lineEnd {current nodes : List Node} {tokens left : List Token}
    (h : Operands current tokens nodes left) (hleft : left = []) :
    ∀ t ∈ tokens, t.kind ≠ .lineEnd := by
  induction h with
  | done => nofun
  | stop => cases hleft
  | blank hk _ ih | word hk _ ih =>
    exact List.forall_mem_cons.2 ⟨by rw [hk]; nofun, ih hleft⟩
  | reference hk hname _ ih =>
    refine List.forall_mem_cons.2 ⟨by rw [hk]; nofun, ?_⟩
    exact List.forall_mem_cons.2 ⟨by rw [hname]; nofun, ih hleft⟩
  | region htext henclosed _ ih =>
    obtain ⟨hopening, hclosing⟩ := henclosed.kinds_ne
    refine List.forall_mem_cons.2 ⟨hopening, List.forall_mem_cons.2 ⟨by rw [htext]; nofun, ?_⟩⟩
    exact List.forall_mem_cons.2 ⟨hclosing, ih hleft⟩

/-- Operands in front of more tokens, if these do not go on with the last one of them. -/
theorem Operands.append {current nodes : List Node} {tokens left : List Token}
    (h : Operands current tokens nodes left) {after : List Token}
    (hafter : left = [] → Token.kindAt after = .lineEnd) :
    Operands current (tokens ++ after) nodes (left ++ after) := by
  induction h with
  | done =>
    cases after with
    | nil => exact .done
    | cons t rest =>
      have hkind : t.kind = .lineEnd := hafter rfl
      exact .stop (by rw [hkind]; rfl)
  | stop hend => exact .stop hend
  | blank hk _ ih => exact .blank hk (ih hafter)
  | word hk _ ih => exact .word hk (ih hafter)
  | reference hk hname _ ih => exact .reference hk hname (ih hafter)
  | region htext henclosed _ ih => exact .region htext henclosed (ih hafter)

theorem Operands.suffix {current nodes : List Node} {tokens left : List Token}
    (h : Operands current tokens nodes left) : left <:+ tokens := by
  induction h with
  | done | stop => exact List.suffix_rfl
  | blank _ _ ih | word _ _ ih => exact ih.trans (List.suffix_cons _ _)
  | reference _ _ _ ih => exact ih.trans (List.suffix_append [_, _] _)
  | region _ _ _ ih => exact ih.trans (List.suffix_append [_, _, _] _)

/-- No command of `tokens` goes on in `after`. -/
def Apart (tokens after : List Token) : Prop :=
  tokens = [] ∨ (∃ t ∈ tokens.getLast?, t.kind = .lineEnd) ∨ Token.kindAt after = .lineEnd

theorem Apart.of_suffix {tokens left after : List Token} (h : Apart tokens after)
    (hleft : left <:+ tokens) : Apart left after := by
  obtain ⟨front, rfl⟩ := hleft
  cases left with
  | nil => exact .inl rfl
  | cons t rest =>
    rcases h with h | h | h
    · simp at h
    · rw [List.getLast?_append_of_ne_nil _ (List.cons_ne_nil t rest)] at h
      exact .inr (.inl h)
    · exact .inr (.inr h)

/-- A line end has to follow a command whose operands use up all tokens. -/
theorem Apart.kindAt_eq {t : Token} {rest after left : List Token} {nodes : List Node}
    (h : Apart (t :: rest) after) (ht : t.kind = .word) (hvalues : Operands [] rest nodes left)
    (hleft : left = []) : Token.kindAt after = .lineEnd := by
  rcases h with h | ⟨u, hu, hkind⟩ | h
  · cases h
  · have hnot : ∀ u ∈ t :: rest, u.kind ≠ .lineEnd :=
      List.forall_mem_cons.2 ⟨by rw [ht]; nofun, hvalues.not_lineEnd hleft⟩
    exact absurd hkind (hnot u (List.mem_of_getLast? hu))
  · exact h

theorem Commands.append {tokens after : List Token} {nodes more : List Node}
    (h : Commands tokens nodes) (hmore : Commands after more) (happart : Apart tokens after) :
    Commands (tokens ++ after) (nodes ++ more) := by
  induction h with
  | nil => exact hmore
  | separator hseparates _ ih =>
    exact .separator hseparates (ih (happart.of_suffix (List.suffix_cons _ _)))
  | @command t rest left values nodes hword hname hvalues _ ih =>
    have hafter := happart.kindAt_eq hword hvalues
    have hname' : endsCommandName (Token.kindAt (rest ++ after)) = true := by
      cases rest with
      | nil =>
        rw [List.nil_append, hafter (List.suffix_nil.1 hvalues.suffix)]
        rfl
      | cons u rest => exact hname
    have hleft := happart.of_suffix (hvalues.suffix.trans (List.suffix_cons t rest))
    exact .command hword hname' (hvalues.append hafter) (ih hleft)

open Token.Script (tokensIn Separated)

theorem parseScript_eq_ok_iff {name text : String} {tree : Node} :
    parseScript name text = .ok tree ↔
      ∃ nodes, Commands (tokensIn (.start text.toList .initial)) nodes ∧
        tree = ⟨.program, some name, nodes⟩ := by
  have hparse : parseScript name text =
      (commands (tokensIn (.start text.toList .initial))).map (⟨.program, some name, ·⟩) := rfl
  rw [hparse]
  constructor
  · intro h
    cases hcommands : commands (tokensIn (.start text.toList .initial)) with
    | error e =>
      rw [hcommands] at h
      cases h
    | ok nodes =>
      rw [hcommands] at h
      cases h
      exact ⟨nodes, commands_eq_ok_iff.1 hcommands, rfl⟩
  · rintro ⟨nodes, h, rfl⟩
    rw [commands_eq_ok_iff.2 h]
    rfl

/-- The name of a program does not matter to its commands. -/
theorem parseScript_rename {name text : String} {tree : Node}
    (h : parseScript name text = .ok tree) (name' : String) :
    parseScript name' text = .ok ⟨.program, some name', tree.children⟩ := by
  obtain ⟨nodes, hnodes, rfl⟩ := parseScript_eq_ok_iff.1 h
  exact parseScript_eq_ok_iff.2 ⟨nodes, hnodes, rfl⟩

/-- A script has the same commands wherever it stands, and without the blanks in front of it. -/
theorem Commands.skipBlanks {cs : List Char} {nodes : List Node}
    (h : Commands (tokensIn (.start cs .initial)) nodes) (size : Nat) :
    Commands (tokensIn ⟨size, Reader.skipBlanks cs, .initial⟩) nodes := by
  obtain ⟨blanks, hkinds, htokens⟩ := Token.Script.exists_tokensIn_skipBlanks cs.length cs
  have h' : Commands (blanks ++ tokensIn ⟨cs.length, Reader.skipBlanks cs, .initial⟩) nodes :=
    htokens ▸ h
  exact (h'.of_append hkinds).of_alike (Token.Script.alike_tokensIn _ size)

theorem Commands.separated {tokens next after : List Token} {nodes : List Node}
    (h : Commands next nodes) (hseparated : Separated tokens next after) :
    Commands after nodes ∧ Apart tokens after := by
  rcases hseparated with ⟨t, hkind, rfl⟩ | ⟨hlast, rfl⟩
  · exact ⟨.separator (by rw [hkind]; rfl) h, .inr (.inr hkind)⟩
  · exact ⟨h, .inr (.inl hlast)⟩

/-- The commands of a script followed by another one on the next line. -/
theorem parseScript_joined {name first second : String} {a b : Node}
    (hescape : '\\' ∉ first.toList) (hclosed : Token.Script.closesReferences first = true)
    (ha : parseScript name first = .ok a) (hb : parseScript name second = .ok b) :
    parseScript name (first ++ "\n" ++ second) =
      .ok ⟨.program, some name, a.children ++ b.children⟩ := by
  obtain ⟨as, has, rfl⟩ := parseScript_eq_ok_iff.1 ha
  obtain ⟨bs, hbs, rfl⟩ := parseScript_eq_ok_iff.1 hb
  have htext : (first ++ "\n" ++ second).toList = first.toList ++ '\n' :: second.toList := by
    simp
  have hstart : Token.Scanner.start (first.toList ++ '\n' :: second.toList)
        Token.Script.Mode.initial =
      (Token.Scanner.start first.toList .initial).followedBy ('\n' :: second.toList) := by
    simp [Token.Scanner.start, Token.Scanner.followedBy]
  obtain ⟨after, htokens, hseparated⟩ := Token.Script.tokensIn_followedBy second.toList
    (s := .start first.toList .initial) hescape hclosed (Nat.zero_le _) has.complete
  obtain ⟨hafter, happart⟩ := (hbs.skipBlanks _).separated hseparated
  refine parseScript_eq_ok_iff.2 ⟨as ++ bs, ?_, rfl⟩
  rw [htext, hstart, htokens]
  exact has.append hafter happart

end Tickle.Tree
