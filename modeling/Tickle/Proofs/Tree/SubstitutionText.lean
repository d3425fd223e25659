import Tickle.Proofs.Token.Pieces
import Tickle.Proofs.Tree.ScriptGrammar

/-! # How substitution text is composed

Substitution text without a backslash is a row of literal text, references and scripts in brackets,
one for each fragment that is read from it. Only a script begins with a bracket, so a literal holds
none that opens. -/

namespace Tickle

open Tickle.Reader

/-- Plain text without a backslash holds nothing that stops it. -/
theorem Reader.stop_of_mem_readPlain {stop : Char → Bool} {cs : List Char} (h : '\\' ∉ cs) :
    ∀ c ∈ (readPlain stop cs).1, stop c = false := by
  induction cs with
  | nil =>
    rw [readPlain_nil]
    exact fun c hc => absurd hc List.not_mem_nil
  | cons c rest ih =>
    rw [readPlain_cons_of_ne (List.ne_of_not_mem_cons h).symm]
    split
    · exact fun c hc => absurd hc List.not_mem_nil
    · rename_i hstop
      have hc : stop c = false := by
        rw [Bool.or_eq_true, not_or] at hstop
        simpa using hstop.1
      exact List.forall_mem_cons.2 ⟨hc, ih (List.not_mem_of_not_mem_cons h)⟩

/-! ## Tokens -/

namespace Token.Substitution

/-- Tokens from where the scanner stands to the end of the text, which is not among them. -/
def tokensIn (s : Scanner Mode) : List Token := untilEnd (tokensFrom s)

theorem tokensIn_nil (size : Nat) (mode : Mode) : tokensIn ⟨size, [], mode⟩ = [] := by
  rw [tokensIn, tokensFrom]
  rfl

theorem kind_stepAt (mode : Mode) (c : Char) (rest : List Char) :
    (stepAt mode c rest).kind ≠ .endOfText := by
  cases mode with
  | plain =>
    unfold stepAt
    dsimp only
    split_ifs <;> nofun
  | name | inside | closing => nofun

theorem exists_tokensIn_cons {mode : Mode} {c : Char} {rest : List Char} {step : Step Mode}
    (h : stepAt mode c rest = step) (size : Nat) :
    ∃ pos, tokensIn ⟨size, c :: rest, mode⟩ =
      ⟨step.kind, some step.text, pos⟩ :: tokensIn ⟨size, step.rest, step.mode⟩ := by
  subst h
  have hnext := next?_of_cons size mode c rest
  refine ⟨Scanner.pos ⟨size, c :: rest, mode⟩, ?_⟩
  rw [tokensIn, tokensFrom]
  split
  · rename_i hnone
    cases hnone.symm.trans hnext
  · rename_i hsome
    cases hsome.symm.trans hnext
    exact List.takeWhile_cons_of_pos (decide_eq_true (kind_stepAt mode c rest))

/-- A reference is read in two tokens. -/
theorem exists_tokensIn_reference {cs name rest : List Char}
    (hstart : startsName ('$' :: cs) = true) (hname : readName cs = (name, rest)) (size : Nat) :
    ∃ pos pos', tokensIn ⟨size, '$' :: cs, .plain⟩ =
      ⟨.dollar, some "$", pos⟩ :: ⟨.name, some (String.ofList name), pos'⟩ ::
        tokensIn ⟨size, rest, .plain⟩ := by
  cases cs with
  | nil => cases hstart
  | cons c cs =>
    have hdollar : stepAt .plain '$' (c :: cs) = ⟨.dollar, "$", c :: cs, .name⟩ := by
      simp [stepAt, hstart]
    have hread : stepAt .name c cs = ⟨.name, String.ofList name, rest, .plain⟩ := by
      rw [stepAt, hname]
    obtain ⟨pos, hpos⟩ := exists_tokensIn_cons hdollar size
    obtain ⟨pos', hpos'⟩ := exists_tokensIn_cons hread size
    exact ⟨pos, pos', hpos.trans (congrArg _ hpos')⟩

/-- Literal text is read in one token. -/
theorem exists_tokensIn_literal {c : Char} {rest literal after : List Char} (hc : c ≠ '[')
    (hname : startsName (c :: rest) = false)
    (hread : readPlain (· == '[') (c :: rest) = (literal, after)) (size : Nat) :
    ∃ pos, tokensIn ⟨size, c :: rest, .plain⟩ =
      ⟨.string, some (String.ofList literal), pos⟩ :: tokensIn ⟨size, after, .plain⟩ := by
  have hstep : stepAt .plain c rest = ⟨.string, String.ofList literal, after, .plain⟩ := by
    simp [stepAt, hc, hname, hread]
  exact exists_tokensIn_cons hstep size

/-- A bracket and the script behind it are read in two tokens. -/
theorem exists_tokensIn_brackets (size : Nat) (c : Char) (rest : List Char) :
    ∃ pos pos', tokensIn ⟨size, '[' :: c :: rest, .plain⟩ =
      ⟨.leftBracket, some "[", pos⟩ ::
        ⟨.string, some (String.ofList (readBracketed 0 0 (c :: rest)).1), pos'⟩ ::
          tokensIn ⟨size, (readBracketed 0 0 (c :: rest)).2, .closing⟩ := by
  have hopen : stepAt .plain '[' (c :: rest) = ⟨.leftBracket, "[", c :: rest, .inside⟩ := rfl
  have hinside : stepAt .inside c rest = ⟨.string, String.ofList (readBracketed 0 0 (c :: rest)).1,
      (readBracketed 0 0 (c :: rest)).2, .closing⟩ := rfl
  obtain ⟨pos, hpos⟩ := exists_tokensIn_cons hopen size
  obtain ⟨pos', hpos'⟩ := exists_tokensIn_cons hinside size
  exact ⟨pos, pos', hpos.trans (congrArg _ hpos')⟩

theorem exists_tokensIn_closing (size : Nat) (rest : List Char) :
    ∃ pos, tokensIn ⟨size, ']' :: rest, .closing⟩ =
      ⟨.rightBracket, some "]", pos⟩ :: tokensIn ⟨size, rest, .plain⟩ := by
  have hclose : stepAt .closing ']' rest = ⟨.rightBracket, "]", rest, .plain⟩ := rfl
  exact exists_tokensIn_cons hclose size

end Token.Substitution

/-! ## Fragments -/

namespace Tree

theorem parseSubstitution_eq (text : String) :
    parseSubstitution text =
      (fragments (Token.Substitution.tokensIn (.start text.toList .plain))).map
        (⟨.list, none, ·⟩) :=
  rfl

variable {text text' : Option String} {pos pos' pos'' : Nat} {rest : List Token}

theorem fragments_nil : fragments [] = .ok [] := by rw [fragments]

theorem fragments_string :
    fragments (⟨.string, text, pos⟩ :: rest) =
      (fragments rest).map (⟨.substring, text, []⟩ :: ·) := by
  rw [fragments]
  cases fragments rest <;> rfl

theorem fragments_reference :
    fragments (⟨.dollar, text', pos'⟩ :: ⟨.name, text, pos⟩ :: rest) =
      (fragments rest).map (⟨.name, text, []⟩ :: ·) := by
  rw [fragments]
  change ((fragments rest).bind _) = _
  cases fragments rest <;> rfl

theorem fragments_brackets {text'' : Option String} :
    fragments (⟨.leftBracket, text', pos'⟩ :: ⟨.string, text, pos⟩ ::
      ⟨.rightBracket, text'', pos''⟩ :: rest) =
        (fragments rest).map (⟨.program, some (text.getD ""), []⟩ :: ·) := by
  rw [fragments]
  change ((fragments rest).bind _) = _
  cases fragments rest <;> rfl

theorem exists_of_map_eq_ok {α β : Type} {x : Except Error α} {f : α → β} {b : β}
    (h : x.map f = .ok b) : ∃ a, x = .ok a ∧ f a = b := by
  cases x with
  | error e => cases h
  | ok a => exact ⟨a, rfl, Except.ok.inj h⟩

/-! ## Composition -/

open Token (Spells Step)
open Token.Substitution

/-- How a text is put together from what its fragments stand for. -/
inductive Composed : List Char → List Node → Prop
  | nil : Composed [] []
  | literal {cs rest : List Char} {nodes : List Node} : '[' ∉ cs → Composed rest nodes →
    Composed (cs ++ rest) (⟨.substring, some (String.ofList cs), []⟩ :: nodes)
  | reference {name : String} {piece rest : List Char} {nodes : List Node} :
    Spells (rest = []) .name name piece → Composed rest nodes →
    Composed ('$' :: (piece ++ rest)) (⟨.name, some name, []⟩ :: nodes)
  | script {cs rest : List Char} {nodes : List Node} : Composed rest nodes →
    Composed ('[' :: (cs ++ ']' :: rest)) (⟨.program, some (String.ofList cs), []⟩ :: nodes)

variable {size : Nat} {nodes : List Node}

/-- Behind an opening bracket, a script and its closing bracket are read. -/
theorem exists_of_fragments_script {cs : List Char}
    (h : fragments (tokensIn ⟨size, '[' :: cs, .plain⟩) = .ok nodes) :
    ∃ script after more, cs = script ++ ']' :: after ∧
      fragments (tokensIn ⟨size, after, .plain⟩) = .ok more ∧
      nodes = ⟨.program, some (String.ofList script), []⟩ :: more := by
  cases cs with
  | nil =>
    have hopen : stepAt .plain '[' [] = ⟨.leftBracket, "[", [], .inside⟩ := rfl
    obtain ⟨pos, hpos⟩ := exists_tokensIn_cons hopen size
    rw [hpos, tokensIn_nil, fragments] at h
    cases h
  | cons c rest =>
    obtain ⟨pos, pos', hpos⟩ := exists_tokensIn_brackets size c rest
    have happend := readBracketed_append 0 0 (c :: rest)
    have hstop := readBracketed_stop 0 0 (c :: rest)
    rw [hpos] at h
    generalize readBracketed 0 0 (c :: rest) = read at h happend hstop
    obtain ⟨script, after⟩ := read
    cases after with
    | nil =>
      rw [tokensIn_nil, fragments] at h
      cases h
    | cons d after =>
      obtain rfl : d = ']' := hstop d rfl
      obtain ⟨pos'', hclose⟩ := exists_tokensIn_closing size after
      rw [hclose, fragments_brackets] at h
      obtain ⟨more, hmore, rfl⟩ := exists_of_map_eq_ok h
      exact ⟨script, after, more, happend.symm, hmore, rfl⟩

/-- The fragments that are read from a text say how it is composed. -/
theorem composed_of_fragments {cs : List Char} (hescape : '\\' ∉ cs)
    (h : fragments (tokensIn ⟨size, cs, .plain⟩) = .ok nodes) : Composed cs nodes := by
  -- one fragment may take several tokens, so the induction is on what is left behind it
  induction hlength : cs.length using Nat.strongRecOn generalizing cs nodes with
  | _ n ih =>
    subst hlength
    cases cs with
    | nil =>
      rw [tokensIn_nil, fragments_nil] at h
      cases h
      exact .nil
    | cons c rest =>
      by_cases hbracket : c = '['
      · subst hbracket
        obtain ⟨script, after, more, rfl, hmore, rfl⟩ := exists_of_fragments_script h
        refine .script (ih after.length ?_ ?_ hmore rfl)
        · simp only [List.length_cons, List.length_append]
          omega
        · exact fun hmem => hescape (by simp [hmem])
      · cases hname : startsName (c :: rest) with
        | true =>
          obtain rfl : c = '$' := eq_of_startsName hname
          obtain ⟨_, _, htokens⟩ := exists_tokensIn_reference hname rfl size
          rw [htokens, fragments_reference] at h
          obtain ⟨more, hmore, rfl⟩ := exists_of_map_eq_ok h
          have hcuts : Step.Cuts ⟨.name, String.ofList (readName rest).1, (readName rest).2,
            Mode.plain⟩ rest := Token.cuts_name rest
          obtain ⟨piece, hpiece, hspells⟩ := hcuts
          have hsuffix := (readName_suffix rest).trans (List.suffix_cons '$' rest)
          have hshorter : (readName rest).2.length < ('$' :: rest).length :=
            Nat.lt_succ_of_le (length_readName_le rest)
          have hcomposed := Composed.reference hspells
            (ih _ hshorter (fun hmem => hescape (hsuffix.subset hmem)) hmore rfl)
          rwa [← hpiece] at hcomposed
        | false =>
          obtain ⟨_, htokens⟩ := exists_tokensIn_literal hbracket hname rfl size
          rw [htokens, fragments_string] at h
          obtain ⟨more, hmore, rfl⟩ := exists_of_map_eq_ok h
          have hliteral : '[' ∉ (readPlain (· == '[') (c :: rest)).1 := fun hmem =>
            absurd (stop_of_mem_readPlain hescape _ hmem) (by decide)
          have hsuffix := readPlain_suffix (· == '[') (c :: rest)
          have hshorter : (readPlain (· == '[') (c :: rest)).2.length < (c :: rest).length :=
            length_readPlain_lt (by simpa using hbracket) hname
          have hcomposed := Composed.literal hliteral
            (ih _ hshorter (fun hmem => hescape (hsuffix.subset hmem)) hmore rfl)
          rwa [readPlain_append hescape] at hcomposed

end Tree

end Tickle
