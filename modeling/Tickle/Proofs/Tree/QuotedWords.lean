import Tickle.Proofs.Tree.CommandGrammar
import Tickle.Proofs.Tree.References

/-! # Quoted words and the text in them

The inside of a quoted word is substitution text, but where the word ends is found by another
reader. That reader counts every bracket: those of a script as well as those that stand in braces,
where the reader of the script skips them, or in a name. The two agree on a text exactly if the
count is back at zero at its end, which it is if it is for each script and each name in the text.
Else the quote behind the text is taken for a part of a script, and the word has no end. -/

namespace Tickle

namespace Reader

/-! ## Brackets in quotes -/

/-- Brackets that are open behind a character, if `opened` are open in front of it. One that closes
nothing does not count. -/
def countBracket (opened : Nat) (c : Char) : Nat :=
  if c = '[' then opened + 1 else if c = ']' then opened - 1 else opened

/-- Brackets that are open behind a text. -/
def countBrackets (opened : Nat) (cs : List Char) : Nat := cs.foldl countBracket opened

theorem countBrackets_append (opened : Nat) (cs ds : List Char) :
    countBrackets opened (cs ++ ds) = countBrackets (countBrackets opened cs) ds :=
  List.foldl_append

theorem countBracket_of_ne {c : Char} (hopen : c ≠ '[') (hclose : c ≠ ']') (opened : Nat) :
    countBracket opened c = opened := by
  simp [countBracket, hopen, hclose]

theorem countBracket_le {a b n : Nat} (h : a ≤ n + b) (c : Char) :
    countBracket a c ≤ n + countBracket b c := by
  unfold countBracket
  split_ifs <;> omega

/-- More brackets in front of a text are at most as many more behind it. -/
theorem countBrackets_le {a b n : Nat} (h : a ≤ n + b) (cs : List Char) :
    countBrackets a cs ≤ n + countBrackets b cs := by
  induction cs generalizing a b with
  | nil => exact h
  | cons c cs ih => exact ih (countBracket_le h c)

/-- Text that opens no bracket leaves none open. -/
theorem countBrackets_of_not_mem {cs : List Char} (h : '[' ∉ cs) : countBrackets 0 cs = 0 := by
  induction cs with
  | nil => rfl
  | cons c cs ih =>
    have hc : countBracket 0 c = 0 := by
      simp [countBracket, (List.ne_of_not_mem_cons h).symm]
    rw [countBrackets, List.foldl_cons, hc]
    exact ih (List.not_mem_of_not_mem_cons h)

/-- Quoted text without a quote or a backslash is read to its end, with its brackets counted. -/
theorem readQuoted_of_not_mem {cs : List Char} (hquote : '"' ∉ cs) (hescape : '\\' ∉ cs)
    (opened : Nat) (rest : List Char) :
    readQuoted opened (cs ++ rest) =
      (cs ++ (readQuoted (countBrackets opened cs) rest).1,
        (readQuoted (countBrackets opened cs) rest).2) := by
  induction cs generalizing opened with
  | nil => rfl
  | cons c cs ih =>
    have hc : c ≠ '\\' := (List.ne_of_not_mem_cons hescape).symm
    have hc' : c ≠ '"' := (List.ne_of_not_mem_cons hquote).symm
    have hstep : readQuoted opened (c :: (cs ++ rest)) =
        keep c (readQuoted (countBracket opened c) (cs ++ rest)) := by
      simp only [readQuoted, hc, false_implies, implies_true, countBracket]
      by_cases hopen : c = '['
      · simp [hopen]
      · by_cases hclose : c = ']'
        · cases opened <;> simp [hclose]
        · simp [hopen, hclose, hc']
    rw [List.cons_append, hstep,
      ih (List.not_mem_of_not_mem_cons hquote) (List.not_mem_of_not_mem_cons hescape)]
    rfl

/-- Where the quote behind a text ends it. -/
theorem readQuoted_quote {cs : List Char} (hquote : '"' ∉ cs) (hescape : '\\' ∉ cs) :
    readQuoted 0 (cs ++ ['"']) =
      if countBrackets 0 cs = 0 then (cs, ['"']) else (cs ++ ['"'], []) := by
  rw [readQuoted_of_not_mem hquote hescape]
  cases countBrackets 0 cs with
  | zero => simp [readQuoted]
  | succ n => simp [readQuoted]

end Reader

namespace Tree

open Reader Token Token.Script

/-! ## Brackets of a composed text -/

theorem countBrackets_of_spells {atEnd : Prop} {name : String} {piece : List Char}
    (h : Spells atEnd .name name piece) : countBrackets 0 piece = countBrackets 0 name.toList := by
  cases h with
  | sign hsign => simp [signs] at hsign
  | name cs => rw [String.toList_ofList]
  | bracedName cs =>
    rw [String.toList_ofList, ← List.singleton_append, countBrackets_append, countBrackets_append]
    exact countBracket_of_ne (c := '}') (by decide) (by decide) _
  | openName cs =>
    rw [String.toList_ofList, ← List.singleton_append, countBrackets_append]
    rfl

/-- A text leaves no bracket open if no name and no script in it does. -/
theorem Composed.countBrackets_eq {cs : List Char} {nodes : List Node} (h : Composed cs nodes)
    (hnodes : ∀ node ∈ nodes, node.kind ≠ .substring → countBrackets 0 node.value.toList = 0) :
    countBrackets 0 cs = 0 := by
  induction h with
  | nil => rfl
  | literal hliteral _ ih =>
    rw [countBrackets_append, countBrackets_of_not_mem hliteral]
    exact ih (List.forall_mem_cons.1 hnodes).2
  | @reference name piece rest nodes hspells _ ih =>
    obtain ⟨hnode, hnodes⟩ := List.forall_mem_cons.1 hnodes
    have hname : countBrackets 0 name.toList = 0 := hnode nofun
    rw [← List.singleton_append, countBrackets_append, countBrackets_append]
    change countBrackets (countBrackets 0 piece) rest = 0
    rw [countBrackets_of_spells hspells, hname]
    exact ih hnodes
  | @script cs rest nodes _ ih =>
    obtain ⟨hnode, hnodes⟩ := List.forall_mem_cons.1 hnodes
    have hscript : countBrackets 0 cs = 0 := by
      have hvalue := hnode nofun
      rwa [Node.value, Option.getD_some, String.toList_ofList] at hvalue
    -- the bracket in front may pair with one that closes nothing in the script by itself
    have hle : countBrackets 1 cs ≤ 1 + countBrackets 0 cs := countBrackets_le (Nat.le_refl 1) cs
    have hclosed : countBrackets 1 cs - 1 = 0 := by omega
    rw [← List.singleton_append, countBrackets_append, countBrackets_append]
    change countBrackets (countBrackets 1 cs - 1) rest = 0
    rw [hclosed]
    exact ih hnodes

/-! ## Scripts -/

/-- The program that prints one word. -/
def printing (name : String) (nodes : List Node) : Node :=
  ⟨.program, some name, [⟨.command, some "puts", [⟨.operand, none, nodes⟩]⟩]⟩

/-- The tokens of a quoted word behind the name of a command. -/
theorem exists_tokensIn_printing (text : String) :
    ∃ size p₁ p₂ p₃ p₄,
      tokensIn (.start ("puts \"" ++ text ++ "\"").toList .initial) =
        ⟨.word, some "puts", p₁⟩ :: ⟨.blank, some " ", p₂⟩ :: ⟨.leftQuote, some "\"", p₃⟩ ::
          ⟨.string, some (String.ofList (readQuoted 0 (text.toList ++ ['"'])).1), p₄⟩ ::
            tokensIn ⟨size, (readQuoted 0 (text.toList ++ ['"'])).2, .closing .quotes⟩ := by
  have htext : ("puts \"" ++ text ++ "\"").toList =
      "puts".toList ++ ' ' :: '"' :: (text.toList ++ ['"']) := by
    simp [String.toList_append]
  have hword : IsVarText "puts" := isVarText_of_all (by decide)
  obtain ⟨c, rest, hcons⟩ : ∃ c rest, text.toList ++ ['"'] = c :: rest :=
    List.exists_cons_of_ne_nil (by simp)
  rw [Scanner.start, htext]
  generalize List.length _ = size
  obtain ⟨p₁, p₂, hputs⟩ := exists_tokensIn_command hword (c := '"') rfl size
    (text.toList ++ ['"'])
  obtain ⟨p₃, p₄, hregion⟩ := exists_tokensIn_region .quotes size false c rest
  refine ⟨size, p₁, p₂, p₃, p₄, ?_⟩
  rw [hputs, hcons]
  exact congrArg _ (congrArg _ hregion)

/-- A quoted word is one operand, with one fragment at least. -/
theorem operandOf_quotedNodes (nodes : List Node) :
    operandOf (quotedNodes nodes) =
      [⟨.operand, none, if nodes = [] then [⟨.substring, some "", []⟩] else nodes⟩] := by
  cases nodes <;> rfl

/-- A word that is left open has no closing quote. -/
theorem commands_unclosed {a b c d : Option String} {p q r s : Nat} :
    commands [⟨.word, a, p⟩, ⟨.blank, b, q⟩, ⟨.leftQuote, c, r⟩, ⟨.string, d, s⟩] =
      .error (.parse .unexpected (some .endOfText) (some .rightQuote)) := by
  have hoperands : operands [] [⟨.blank, b, q⟩, ⟨.leftQuote, c, r⟩, ⟨.string, d, s⟩] =
      .error (.parse .unexpected (some .endOfText) (some .rightQuote)) := by
    rw [operands, operands]
    rfl
  rw [commands]
  simp only [hoperands]
  rfl

/-- The quote behind a text ends the word if the text leaves no bracket open; else nothing does. -/
theorem parseScript_printing {text : String} {tree : Node} (name : String)
    (hquote : '"' ∉ text.toList) (hescape : '\\' ∉ text.toList)
    (h : parseSubstitution text = .ok tree) :
    parseScript name ("puts \"" ++ text ++ "\"") =
      if countBrackets 0 text.toList = 0 then
        .ok (printing name
          (if tree.children = [] then [⟨.substring, some "", []⟩] else tree.children))
      else .error (.parse .unexpected (some .endOfText) (some .rightQuote)) := by
  obtain ⟨nodes, hnodes, rfl⟩ := parseSubstitution_eq_ok_iff.1 h
  obtain ⟨size, p₁, p₂, p₃, p₄, htokens⟩ := exists_tokensIn_printing text
  have hread := readQuoted_quote hquote hescape
  split
  · rename_i hclosed
    obtain ⟨p₅, hclosing⟩ := exists_tokensIn_closing .quotes size []
    have hend : tokensIn ⟨size, [], .afterPart⟩ = [] := tokensIn_of_none (next?_of_nil rfl)
    rw [if_pos hclosed] at hread
    rw [hread, String.ofList_toList] at htokens
    rw [hend] at hclosing
    refine parseScript_eq_ok_iff.2 ⟨_, ?_, rfl⟩
    rw [htokens, show '"' = Region.quotes.closer from rfl, hclosing, ← operandOf_quotedNodes]
    exact .command rfl rfl (.blank rfl (.region rfl (.quotes hnodes) .done)) .nil
  · rename_i hopen
    have hend : tokensIn ⟨size, [], .closing .quotes⟩ = [] := tokensIn_of_none (next?_of_nil rfl)
    have hparse : parseScript name ("puts \"" ++ text ++ "\"") =
        (commands (tokensIn (.start ("puts \"" ++ text ++ "\"").toList .initial))).map
          (⟨.program, some name, ·⟩) := rfl
    rw [if_neg hopen] at hread
    rw [hread, hend] at htokens
    rw [hparse, htokens, commands_unclosed]
    rfl

/-- A text between quotes is read as one word with the fragments of the text exactly if it leaves no
bracket open, and it leaves none open if none of its names and scripts does. -/
theorem parseScript_quoted {text : String} {tree : Node} (name : String)
    (hquote : '"' ∉ text.toList) (hescape : '\\' ∉ text.toList)
    (h : parseSubstitution text = .ok tree) :
    (parseScript name ("puts \"" ++ text ++ "\"") =
      if countBrackets 0 text.toList = 0 then
        .ok (printing name
          (if tree.children = [] then [⟨.substring, some "", []⟩] else tree.children))
      else .error (.parse .unexpected (some .endOfText) (some .rightQuote))) ∧
    ((∀ node ∈ tree.children, node.kind ≠ .substring → countBrackets 0 node.value.toList = 0) →
      countBrackets 0 text.toList = 0) := by
  refine ⟨parseScript_printing name hquote hescape h, fun hnodes => ?_⟩
  obtain ⟨nodes, hfragments, rfl⟩ := parseSubstitution_eq_ok_iff.1 h
  exact (composed_of_fragments hescape hfragments).countBrackets_eq hnodes

/-- Literal brackets, a bracket in braces, a script in a script and one in an index. -/
theorem parseScript_quoted_nested :
    let text := "a ] [f \x7bx]\x7d [g $y]] $\x7bn\x7d$z([h])"
    let nodes : List Node :=
      [⟨.substring, some "a ] ", []⟩, ⟨.program, some "f \x7bx]\x7d [g $y]", []⟩,
        ⟨.substring, some " ", []⟩, ⟨.name, some "n", []⟩, ⟨.name, some "z([h])", []⟩]
    parseSubstitution text = .ok ⟨.list, none, nodes⟩ ∧
      parseScript "main" ("puts \"" ++ text ++ "\"") = .ok (printing "main" nodes) := by
  intro text nodes
  have h : parseSubstitution text = .ok ⟨.list, none, nodes⟩ := by decide +kernel
  have hnodes : ∀ node ∈ nodes, node.kind ≠ .substring → countBrackets 0 node.value.toList = 0 := by
    decide +kernel
  obtain ⟨hparse, hclosed⟩ := parseScript_quoted "main" (by decide +kernel) (by decide +kernel) h
  exact ⟨h, hparse.trans (if_pos (hclosed hnodes))⟩

/-- A bracket in braces keeps the word from ending, within a script and within a name. -/
theorem parseScript_quoted_unpaired :
    let script := "[string length \x7b[\x7d]"
    let reference := "$\x7ba[\x7d"
    let unclosed : Error := .parse .unexpected (some .endOfText) (some .rightQuote)
    ('"' ∉ script.toList ∧ '\\' ∉ script.toList ∧ (parseSubstitution script).isOk = true ∧
      parseScript "main" ("puts \"" ++ script ++ "\"") = .error unclosed) ∧
    '"' ∉ reference.toList ∧ '\\' ∉ reference.toList ∧
      (parseSubstitution reference).isOk = true ∧
      parseScript "main" ("puts \"" ++ reference ++ "\"") = .error unclosed := by
  decide +kernel

end Tree

end Tickle
