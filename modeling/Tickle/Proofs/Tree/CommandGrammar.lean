import Tickle.Proofs.Tree.ScriptGrammar

/-! # Scripts as they are written

The grammar of scripts, said without the operand that the reader keeps open: fragments make up rows,
rows and blanks the arguments of a command, commands and separators a script. Every row is one
operand. The derivations of this grammar are those of the reader, for tokens in any order. -/

namespace Tickle.Tree

/-! ## The grammar -/

/-- Fragments, with the nodes that they add to their operand. A quoted fragment adds the fragments
of its text or, if it has none, one that is empty. -/
inductive Fragment : List Token → List Node → Prop
  | word {t : Token} : t.kind = .word → Fragment [t] [⟨.word, t.text, []⟩]
  | reference {dollar name : Token} : dollar.kind = .dollar → name.kind = .name →
    Fragment [dollar, name] [⟨.name, name.text, []⟩]
  | braces {opening text closing : Token} : opening.kind = .leftBrace → text.kind = .string →
    closing.kind = .rightBrace →
    Fragment [opening, text, closing] [⟨.string, some (text.text.getD ""), []⟩]
  | brackets {opening text closing : Token} : opening.kind = .leftBracket → text.kind = .string →
    closing.kind = .rightBracket →
    Fragment [opening, text, closing] [⟨.program, some (text.text.getD ""), []⟩]
  | quotes {opening text closing : Token} {tree : Node} : opening.kind = .leftQuote →
    text.kind = .string → closing.kind = .rightQuote →
    parseSubstitution (text.text.getD "") = .ok tree → tree.children ≠ [] →
    Fragment [opening, text, closing] tree.children
  | emptyQuotes {opening text closing : Token} {tree : Node} : opening.kind = .leftQuote →
    text.kind = .string → closing.kind = .rightQuote →
    parseSubstitution (text.text.getD "") = .ok tree → tree.children = [] →
    Fragment [opening, text, closing] [⟨.substring, some "", []⟩]

/-- Fragments side by side. -/
inductive Row : List Token → List Node → Prop
  | nil : Row [] []
  | cons {ts us : List Token} {ns ms : List Node} : Fragment ts ns → Row us ms →
    Row (ts ++ us) (ns ++ ms)

/-- Fragments and blanks in any order. A row that reaches from a blank, or the beginning, to a
blank, or the end, is one operand. -/
inductive Arguments : List Token → List Node → Prop
  | nil : Arguments [] []
  | blank {t : Token} {ts : List Token} {operands : List Node} : t.kind = .blank →
    Arguments ts operands → Arguments (t :: ts) operands
  | last {row : List Token} {nodes : List Node} : Row row nodes → row ≠ [] →
    Arguments row [⟨.operand, none, nodes⟩]
  | operand {row ts : List Token} {t : Token} {nodes operands : List Node} : Row row nodes →
    row ≠ [] → t.kind = .blank → Arguments ts operands →
    Arguments (row ++ t :: ts) (⟨.operand, none, nodes⟩ :: operands)

/-- The tokens of a command: its name alone, or its name, a blank and arguments. -/
inductive CommandLine : List Token → Node → Prop
  | bare {t : Token} : t.kind = .word → CommandLine [t] ⟨.command, t.text, []⟩
  | arguments {t blank : Token} {ts : List Token} {operands : List Node} : t.kind = .word →
    blank.kind = .blank → Arguments ts operands →
    CommandLine (t :: blank :: ts) ⟨.command, t.text, operands⟩

/-- A command may end in front of these tokens. -/
def AtCommandEnd (tokens : List Token) : Prop :=
  ∀ t ∈ tokens.head?, t.kind = .lineEnd ∨ t.kind = .semicolon

/-- Separators and commands, and the node of each command. -/
inductive Program : List Token → List Node → Prop
  | nil : Program [] []
  | separator {t : Token} {ts : List Token} {nodes : List Node} :
    t.kind ∈ [.blank, .lineEnd, .semicolon, .comment] → Program ts nodes → Program (t :: ts) nodes
  | command {line ts : List Token} {node : Node} {nodes : List Node} : CommandLine line node →
    AtCommandEnd ts → Program ts nodes → Program (line ++ ts) (node :: nodes)

theorem atCommandEnd_cons {t : Token} {ts : List Token} :
    AtCommandEnd (t :: ts) ↔ endsCommand t.kind = true := by
  simp [AtCommandEnd, endsCommand]

theorem endsCommandName_of_endsCommand {kind : Token.Kind} (h : endsCommand kind = true) :
    endsCommandName kind = true := by
  have hkind : kind = .lineEnd ∨ kind = .semicolon := by simpa [endsCommand] using h
  rcases hkind with rfl | rfl <;> rfl

/-! ## No operand is empty -/

theorem Fragment.nonempty {ts : List Token} {ns : List Node} (h : Fragment ts ns) :
    ts ≠ [] ∧ ns ≠ [] := by
  cases h with
  | word | reference | braces | brackets | emptyQuotes => exact ⟨nofun, nofun⟩
  | quotes _ _ _ _ hchildren => exact ⟨nofun, hchildren⟩

theorem Row.eq_nil_iff {row : List Token} {nodes : List Node} (h : Row row nodes) :
    nodes = [] ↔ row = [] := by
  cases h with
  | nil => exact ⟨fun _ => rfl, fun _ => rfl⟩
  | cons hfragment _ => simp [hfragment.nonempty]

/-- A row that is not empty makes an operand. -/
theorem Row.operandOf_eq {row : List Token} {nodes : List Node} (h : Row row nodes)
    (hrow : row ≠ []) : operandOf nodes = [⟨.operand, none, nodes⟩] := by
  cases nodes with
  | nil => exact absurd (h.eq_nil_iff.1 rfl) hrow
  | cons => rfl

/-- An operand with at least one fragment. -/
def IsOperand (node : Node) : Prop := node.kind = .operand ∧ node.children ≠ []

theorem Arguments.isOperand {ts : List Token} {operands : List Node} (h : Arguments ts operands) :
    ∀ operand ∈ operands, IsOperand operand := by
  induction h with
  | nil => exact nofun
  | blank _ _ ih => exact ih
  | last hrow hne => exact List.forall_mem_singleton.2 ⟨rfl, mt hrow.eq_nil_iff.1 hne⟩
  | operand hrow hne _ _ ih => exact List.forall_mem_cons.2 ⟨⟨rfl, mt hrow.eq_nil_iff.1 hne⟩, ih⟩

theorem CommandLine.isOperand {line : List Token} {node : Node} (h : CommandLine line node) :
    node.kind = .command ∧ ∀ operand ∈ node.children, IsOperand operand := by
  cases h with
  | bare => exact ⟨rfl, nofun⟩
  | arguments _ _ hoperands => exact ⟨rfl, hoperands.isOperand⟩

theorem Program.isOperand {ts : List Token} {nodes : List Node} (h : Program ts nodes) :
    ∀ node ∈ nodes, node.kind = .command ∧ ∀ operand ∈ node.children, IsOperand operand := by
  induction h with
  | nil => exact nofun
  | separator _ _ ih => exact ih
  | command hline _ _ ih => exact List.forall_mem_cons.2 ⟨hline.isOperand, ih⟩

/-! ## Derivations of the reader -/

theorem parseSubstitution_eq_ok_iff {text : String} {tree : Node} :
    parseSubstitution text = .ok tree ↔
      ∃ nodes, fragments (Token.untilEnd (Token.Substitution.tokens text)) = .ok nodes ∧
        tree = ⟨.list, none, nodes⟩ := by
  rw [parseSubstitution, substitutionOfTokens]
  cases fragments (Token.untilEnd (Token.Substitution.tokens text)) with
  | error e => exact ⟨nofun, nofun⟩
  | ok nodes =>
    constructor
    · intro h
      cases h
      exact ⟨nodes, rfl, rfl⟩
    · rintro ⟨_, h, rfl⟩
      cases h
      rfl

/-- The region of a fragment. -/
theorem Enclosed.fragment {opening text closing : Token} {nodes : List Node}
    (h : Enclosed opening.kind (text.text.getD "") closing.kind nodes)
    (htext : text.kind = .string) : Fragment [opening, text, closing] nodes := by
  generalize hopening : opening.kind = o at h
  generalize hclosing : closing.kind = c at h
  cases h with
  | braces => exact .braces hopening htext hclosing
  | brackets => exact .brackets hopening htext hclosing
  | @quotes _ nodes hnodes =>
    have htree := parseSubstitution_eq_ok_iff.2 ⟨nodes, hnodes, rfl⟩
    cases nodes with
    | nil => exact .emptyQuotes hopening htext hclosing htree rfl
    | cons => exact .quotes hopening htext hclosing htree nofun

section Operands

variable {current nodes more : List Node} {tokens left ts : List Token}

/-- A fragment continues the operand that is open. -/
theorem Fragment.operands {ns : List Node} (h : Fragment ts ns)
    (hmore : Operands (current ++ ns) tokens more left) :
    Operands current (ts ++ tokens) more left := by
  cases h with
  | word hword => exact .word hword hmore
  | reference hdollar hname => exact .reference hdollar hname hmore
  | braces hopening htext hclosing =>
    refine .region htext ?_ hmore
    rw [hopening, hclosing]
    exact .braces _
  | brackets hopening htext hclosing =>
    refine .region htext ?_ hmore
    rw [hopening, hclosing]
    exact .brackets _
  | quotes hopening htext hclosing htree hne =>
    obtain ⟨nodes, hnodes, rfl⟩ := parseSubstitution_eq_ok_iff.1 htree
    have hquoted : quotedNodes nodes = nodes := by
      cases nodes with
      | nil => exact absurd rfl hne
      | cons => rfl
    refine .region htext ?_ hmore
    rw [hopening, hclosing]
    exact hquoted ▸ .quotes hnodes
  | emptyQuotes hopening htext hclosing htree hnil =>
    obtain ⟨nodes, hnodes, rfl⟩ := parseSubstitution_eq_ok_iff.1 htree
    cases hnil
    refine .region htext ?_ hmore
    rw [hopening, hclosing]
    exact .quotes hnodes

theorem Row.operands {ns : List Node} (h : Row ts ns)
    (hmore : Operands (current ++ ns) tokens more left) :
    Operands current (ts ++ tokens) more left := by
  induction h generalizing current with
  | nil => simpa using hmore
  | cons hfragment _ ih =>
    rw [← List.append_assoc] at hmore
    rw [List.append_assoc]
    exact hfragment.operands (ih hmore)

theorem operands_of_atCommandEnd (current : List Node) (h : AtCommandEnd left) :
    Operands current left (operandOf current) left := by
  cases left with
  | nil => exact .done
  | cons => exact .stop (atCommandEnd_cons.1 h)

/-- Arguments in front of the end of a command are its operands. -/
theorem Arguments.operands (h : Arguments ts nodes) (hend : AtCommandEnd left) :
    Operands [] (ts ++ left) nodes left := by
  induction h with
  | nil => exact operands_of_atCommandEnd [] hend
  | blank hblank _ ih => exact .blank hblank ih
  | @last row nodes hrow hne =>
    have hrest := operands_of_atCommandEnd nodes hend
    rw [hrow.operandOf_eq hne] at hrest
    exact hrow.operands hrest
  | @operand row ts t nodes more hrow hne hblank _ ih =>
    have hrest : Operands nodes (t :: (ts ++ left)) _ left := .blank hblank ih
    rw [hrow.operandOf_eq hne] at hrest
    rw [List.append_assoc]
    exact hrow.operands hrest

/-- What follows the fragments `current` of an operand: the rest of its row, and then nothing, or a
blank and arguments. -/
inductive Continued (current : List Node) : List Token → List Node → Prop
  | last {row : List Token} {nodes : List Node} : Row row nodes →
    Continued current row (operandOf (current ++ nodes))
  | blank {row ts : List Token} {t : Token} {nodes more : List Node} : Row row nodes →
    t.kind = .blank → Arguments ts more →
    Continued current (row ++ t :: ts) (operandOf (current ++ nodes) ++ more)

theorem Continued.fragment {ns : List Node} {us : List Token} (h : Fragment ts ns)
    (hmore : Continued (current ++ ns) us more) : Continued current (ts ++ us) more := by
  cases hmore with
  | last hrow =>
    rw [List.append_assoc]
    exact .last (.cons h hrow)
  | blank hrow hblank hmore =>
    rw [List.append_assoc, ← List.append_assoc ts]
    exact .blank (.cons h hrow) hblank hmore

/-- Where no operand is open, a row that is not empty opens one. -/
theorem Continued.arguments (h : Continued [] ts nodes) : Arguments ts nodes := by
  cases h with
  | last hrow =>
    rw [List.nil_append]
    by_cases hnil : ts = []
    · rw [hrow.eq_nil_iff.2 hnil, hnil]
      exact .nil
    · rw [hrow.operandOf_eq hnil]
      exact .last hrow hnil
  | @blank row ts t nodes more hrow hblank hmore =>
    rw [List.nil_append]
    by_cases hnil : row = []
    · rw [hrow.eq_nil_iff.2 hnil, hnil]
      exact .blank hblank hmore
    · rw [hrow.operandOf_eq hnil]
      exact .operand hrow hnil hblank hmore

/-- The operands that the reader derives are the arguments up to the end of the command. -/
theorem Operands.exists_continued (h : Operands current tokens nodes left) :
    ∃ ts, tokens = ts ++ left ∧ AtCommandEnd left ∧ Continued current ts nodes := by
  induction h with
  | @done current =>
    have hlast : Continued current [] (operandOf (current ++ [])) := .last .nil
    rw [List.append_nil] at hlast
    exact ⟨[], rfl, nofun, hlast⟩
  | @stop current t rest hend =>
    have hlast : Continued current [] (operandOf (current ++ [])) := .last .nil
    rw [List.append_nil] at hlast
    exact ⟨[], rfl, atCommandEnd_cons.2 hend, hlast⟩
  | @blank current more t rest left hblank _ ih =>
    obtain ⟨ts, rfl, hend, hmore⟩ := ih
    have hmore : Continued current (t :: ts) (operandOf (current ++ []) ++ more) :=
      .blank .nil hblank hmore.arguments
    rw [List.append_nil] at hmore
    exact ⟨t :: ts, rfl, hend, hmore⟩
  | word hword _ ih =>
    obtain ⟨ts, rfl, hend, hmore⟩ := ih
    exact ⟨_ :: ts, rfl, hend, .fragment (.word hword) hmore⟩
  | reference hdollar hname _ ih =>
    obtain ⟨ts, rfl, hend, hmore⟩ := ih
    exact ⟨_ :: _ :: ts, rfl, hend, .fragment (.reference hdollar hname) hmore⟩
  | region htext henclosed _ ih =>
    obtain ⟨ts, rfl, hend, hmore⟩ := ih
    exact ⟨_ :: _ :: _ :: ts, rfl, hend, .fragment (henclosed.fragment htext) hmore⟩

end Operands

/-! ## Scripts -/

/-- A script of this grammar is one of the reader's. -/
theorem Program.commands {tokens : List Token} {nodes : List Node} (h : Program tokens nodes) :
    Commands tokens nodes := by
  induction h with
  | nil => exact .nil
  | separator hkind _ ih =>
    refine .separator ?_ ih
    simpa [separatesCommands, or_assoc] using hkind
  | @command line ts node nodes hline hend _ ih =>
    cases hline with
    | bare hword =>
      refine .command hword ?_ (operands_of_atCommandEnd [] hend) ih
      cases ts with
      | nil => rfl
      | cons t ts => exact endsCommandName_of_endsCommand (atCommandEnd_cons.1 hend)
    | @arguments t blank ts' operands hword hblank hoperands =>
      refine .command hword ?_ (.blank hblank (hoperands.operands hend)) ih
      change endsCommandName blank.kind = true
      rw [hblank]
      rfl

theorem Enclosed.endsCommandName_eq {open' close : Token.Kind} {text : String} {nodes : List Node}
    (h : Enclosed open' text close nodes) : endsCommandName open' = false := by
  cases h <;> rfl

/-- Behind the name of a command, the reader derives its arguments. -/
theorem Operands.exists_commandLine {t : Token} {rest left : List Token} {operands : List Node}
    (hword : t.kind = .word) (hname : endsCommandName (Token.kindAt rest) = true)
    (h : Operands [] rest operands left) :
    ∃ line, t :: rest = line ++ left ∧ AtCommandEnd left ∧
      CommandLine line ⟨.command, t.text, operands⟩ := by
  cases h with
  | done => exact ⟨[t], rfl, nofun, .bare hword⟩
  | stop hend => exact ⟨[t], rfl, atCommandEnd_cons.2 hend, .bare hword⟩
  | @blank _ more blank rest left hblank hmore =>
    obtain ⟨ts, rfl, hend, hmore⟩ := hmore.exists_continued
    exact ⟨t :: blank :: ts, rfl, hend, .arguments hword hblank hmore.arguments⟩
  | @word _ _ u _ _ hkind =>
    change endsCommandName u.kind = true at hname
    rw [hkind] at hname
    cases hname
  | @reference _ _ dollar _ _ _ hkind =>
    change endsCommandName dollar.kind = true at hname
    rw [hkind] at hname
    cases hname
  | @region _ _ _ opening _ _ _ _ _ henclosed =>
    change endsCommandName opening.kind = true at hname
    rw [henclosed.endsCommandName_eq] at hname
    cases hname

/-- A script of the reader's is one of this grammar. -/
theorem Commands.program {tokens : List Token} {nodes : List Node} (h : Commands tokens nodes) :
    Program tokens nodes := by
  induction h with
  | nil => exact .nil
  | separator hkind _ ih =>
    refine .separator ?_ ih
    simpa [separatesCommands, or_assoc] using hkind
  | command hword hname hoperands _ ih =>
    obtain ⟨line, hline, hend, hcommand⟩ := hoperands.exists_commandLine hword hname
    rw [hline]
    exact .command hcommand hend ih

/-- Tokens in any order are read exactly if those in front of the first end of text are a script, as
the program of its commands; no operand of it is empty. -/
theorem scriptOfTokens_grammar (name : String) (tokens : List Token) :
    (∀ tree, scriptOfTokens name tokens = .ok tree ↔
      ∃ nodes, Program (tokens.takeWhile (·.kind ≠ .endOfText)) nodes ∧
        tree = ⟨.program, some name, nodes⟩) ∧
    ∀ nodes, Program (tokens.takeWhile (·.kind ≠ .endOfText)) nodes →
      ∀ node ∈ nodes, node.kind = .command ∧ ∀ operand ∈ node.children, IsOperand operand := by
  refine ⟨fun tree => ⟨fun h => ?_, ?_⟩, fun nodes => Program.isOperand⟩
  · unfold scriptOfTokens at h
    cases hnodes : commands (Token.untilEnd tokens) with
    | error e =>
      rw [hnodes] at h
      cases h
    | ok nodes =>
      rw [hnodes] at h
      cases h
      exact ⟨nodes, (Commands.of_commands hnodes).program, rfl⟩
  · rintro ⟨nodes, hprogram, rfl⟩
    rw [scriptOfTokens, Token.untilEnd, hprogram.commands.commands_eq]
    rfl

end Tickle.Tree
