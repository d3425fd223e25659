import Tickle.Proofs.Token.Nesting
import Tickle.Proofs.Tree.CommandGrammar
import Tickle.Proofs.Tree.References
import Mathlib.Data.List.Chain

/-! # Scripts between brackets

A script in which brackets and braces only delimit words, or stand inside words that have
delimiters, can itself stand between brackets. The reader of the brackets does not know where words
begin and end; along the tokens of the script, its counts of brackets and braces are back at zero
wherever a word may begin. Quoted words are the exception: the reader counts the brackets and braces
in them, so these must pair up within the word. A reference whose brace is not closed is another, as
it leaves a brace open. -/

namespace Tickle

open Tickle.Text Tickle.Reader

namespace Token.Script

/-! ## One token -/

/-- What the reader of the brackets around a script has counted in a mode: brackets and braces. -/
def Mode.counts : Mode → Nat × Nat
  | .inside .braces | .closing .braces => (0, 1)
  | .inside .brackets | .closing .brackets => (1, 0)
  | _ => (0, 0)

/-- The reader of the brackets around a script goes over a piece of it, which takes the scanner from
one mode to another. -/
def Crosses (mode : Mode) (piece : List Char) (mode' : Mode) : Prop :=
  Passes mode.counts.1 mode.counts.2 piece mode'.counts.1 mode'.counts.2

/-- The step takes a piece off a text that the reader of brackets goes over. -/
def Crossing (mode : Mode) (cs : List Char) (step : Step Mode) : Prop :=
  ∃ piece, cs = piece ++ step.rest ∧ Crosses mode piece step.mode

/-- Kinds of tokens that are written without delimiters around them. -/
def bareKinds : List Kind := [.word, .name, .comment]

/-- No bare token holds a delimiter. -/
def Bare (kind : Kind) (text : String) : Prop :=
  kind ∈ bareKinds → Undelimited text.toList

theorem crossing_char {mode mode' : Mode} {c : Char} {kind : Kind} {text : String}
    {rest : List Char} (h : Crosses mode [c] mode') :
    Crossing mode (c :: rest) ⟨kind, text, rest, mode'⟩ :=
  ⟨[c], rfl, h⟩

theorem crossing_readWord {wordStart commandStart : Bool} {c : Char} {rest : List Char}
    (h : Bare (readWord wordStart commandStart c rest).kind
      (readWord wordStart commandStart c rest).text) :
    Crossing (.words wordStart commandStart) (c :: rest)
      (readWord wordStart commandStart c rest) := by
  generalize hstep : readWord wordStart commandStart c rest = step at h ⊢
  unfold readWord at hstep
  split_ifs at hstep with hline hsemicolon hblank hcomment hbracket hbrace hquote hname <;>
    subst hstep
  · refine ⟨c :: rest.takeWhile isBlank, ?_, passes_of_plain ?_ 0 0⟩
    · simp [skipBlanks, isBlank_of_isLineEnd hline]
    · refine List.forall_mem_cons.2 ⟨not_mem_of_isBlank (isBlank_of_isLineEnd hline), ?_⟩
      exact fun d hd => not_mem_of_isBlank (List.mem_takeWhile_imp hd)
  · subst hsemicolon
    exact crossing_char (passes_of_not_mem (by decide) 0 0)
  · refine ⟨c :: rest.takeWhile fun d => isBlank d && !isLineEnd d, ?_, passes_of_plain ?_ 0 0⟩
    · simp [skipLineBlanks, hblank, hline]
    · refine List.forall_mem_cons.2 ⟨not_mem_of_isBlank hblank, fun d hd => ?_⟩
      have hboth := List.mem_takeWhile_imp hd
      exact not_mem_of_isBlank (Bool.and_eq_true_iff.1 hboth).1
  · obtain ⟨rfl, -⟩ : c = '#' ∧ commandStart = true := by simpa using hcomment
    refine ⟨'#' :: rest.takeWhile (!isLineEnd ·), ?_, passes_of_plain ?_ 0 0⟩
    · simp
    · have hcomment := h (by simp [bareKinds])
      rw [String.toList_ofList] at hcomment
      exact List.forall_mem_cons.2 ⟨by decide, hcomment⟩
  · subst hbracket
    exact crossing_char (passes_openBracket 0)
  · obtain ⟨rfl, -⟩ : c = '{' ∧ wordStart = true := by simpa using hbrace
    exact crossing_char (passes_openBrace 0 0)
  · obtain ⟨rfl, -⟩ : c = '"' ∧ wordStart = true := by simpa using hquote
    exact crossing_char (passes_of_not_mem (by decide) 0 0)
  · rw [eq_of_startsName hname]
    exact crossing_char (passes_of_not_mem (by decide) 0 0)
  · refine exists_passes_of_readPlain ?_ 0 0
    simpa using h (by simp [bareKinds])

/-- What has to hold where a mode begins for its token to be crossed: a name in braces is closed,
the inside of quotes can stand between brackets, and a region is not left open. -/
structure Crossable (mode : Mode) (cs : List Char) : Prop where
  name : mode = .name → cs ≠ '{' :: (readName cs).1
  quotes : mode = .inside .quotes → FitsBrackets (readQuoted 0 cs).1
  inside : ∀ region, mode = .inside region → (region.read cs).2 ≠ []
  closers : AtClosers mode cs

theorem crossing_stepAt {mode : Mode} {c : Char} {rest : List Char}
    (h : Crossable mode (c :: rest))
    (hbare : Bare (stepAt mode c rest).kind (stepAt mode c rest).text) :
    Crossing mode (c :: rest) (stepAt mode c rest) := by
  cases mode with
  | words wordStart commandStart => exact crossing_readWord hbare
  | name =>
    refine exists_passes_of_readName ?_ (h.name rfl) 0 0
    have hname := hbare (by simp [stepAt, bareKinds])
    simpa [stepAt] using hname
  | inside region =>
    have hclosed := h.inside region rfl
    cases region with
    | braces => exact exists_passes_of_readBraced 0 hclosed
    | brackets =>
      exact ⟨_, (readBracketed_append 0 0 (c :: rest)).symm,
        (fitsBrackets_of_closed hclosed).passes 1⟩
    | quotes => exact ⟨_, (readQuoted_append 0 (c :: rest)).symm, (h.quotes rfl).passes 0⟩
  | closing region =>
    have hc : c = region.closer := h.closers region rfl c rfl
    subst hc
    cases region with
    | braces => exact crossing_char (passes_closeBrace 0 0)
    | brackets => exact crossing_char (passes_closeBracket 0)
    | quotes => exact crossing_char (passes_of_not_mem (by decide) 0 0)

/-! ## All tokens -/

/-- A script, from where the scanner stands, that can stand between brackets as a part of `text`:
bare tokens hold no delimiter, a name in braces does not run to the end of the text, quoted words
can stand between brackets, and no region is left open. -/
structure Bracketable (text : List Char) (s : Scanner Mode) : Prop where
  within : s.rest <:+ text
  bare : ∀ t ∈ tokensIn s, Bare t.kind (t.text.getD "")
  names : ∀ t ∈ tokensIn s, t.kind = .name → ¬ '{' :: (t.text.getD "").toList <:+ text
  quoted : (tokensIn s).IsChain fun t u => t.kind = .leftQuote →
    FitsBrackets (u.text.getD "").toList
  inQuotes : s.mode = .inside .quotes → ∀ t ∈ (tokensIn s).head?,
    FitsBrackets (t.text.getD "").toList
  closers : AtClosers s.mode s.rest
  needs : s.mode.needs ≤ (tokensIn s).length
  complete : Complete (tokensIn s)

theorem kind_of_readWord {wordStart commandStart : Bool} {c : Char} {rest : List Char}
    {region : Region} (h : (readWord wordStart commandStart c rest).mode = .inside region) :
    (readWord wordStart commandStart c rest).kind = region.openKind := by
  generalize hstep : readWord wordStart commandStart c rest = step at h ⊢
  unfold readWord at hstep
  split_ifs at hstep <;> subst hstep <;> cases h
  all_goals rfl

theorem kind_of_inside {mode : Mode} {c : Char} {rest : List Char} {region : Region}
    (h : (stepAt mode c rest).mode = .inside region) :
    (stepAt mode c rest).kind = region.openKind := by
  cases mode with
  | words => exact kind_of_readWord h
  | name | inside | closing => cases h

namespace Bracketable

variable {text : List Char} {s s' : Scanner Mode} {t : Token}

theorem next (h : Bracketable text s) (hnext : next? s = some (t, s')) : Bracketable text s' := by
  obtain ⟨-, hforward, hneeds⟩ := next?_forward hnext
  obtain ⟨c, rest, hrest, htake⟩ := exists_of_next? hnext
  have hkind : t.kind = (stepAt s.mode c rest).kind := congrArg (·.1.kind) htake
  have hs' : s' = ⟨s.size, (stepAt s.mode c rest).rest, (stepAt s.mode c rest).mode⟩ :=
    congrArg Prod.snd htake
  have htokens := tokensIn_of_some hnext
  have hcomplete := h.complete
  have hlength := h.needs
  have hquoted := h.quoted
  rw [htokens] at hcomplete hlength hquoted
  obtain ⟨hfollowed, hcomplete⟩ := hcomplete
  have hmem : ∀ u ∈ tokensIn s', u ∈ tokensIn s := by
    rw [htokens]
    exact fun u => List.mem_cons_of_mem t
  exact {
    within := hforward.trans h.within
    bare := fun u hu => h.bare u (hmem u hu)
    names := fun u hu => h.names u (hmem u hu)
    quoted := hquoted.tail
    inQuotes := by
      intro hmode u hu
      rw [hs'] at hmode
      exact hquoted.rel_head? hu (hkind.trans (kind_of_inside hmode))
    closers := by
      rw [hs']
      exact atClosers_stepAt s.mode c rest
    needs := by
      rw [List.length_cons] at hlength
      omega
    complete := hcomplete }

theorem crossable (h : Bracketable text s) (hnext : next? s = some (t, s')) :
    Crossable s.mode (upcoming s.mode s.rest) := by
  obtain ⟨c, rest, hrest, htake⟩ := exists_of_next? hnext
  have htokens := tokensIn_of_some hnext
  rw [hrest]
  refine ⟨fun hmode hopen => ?_, fun hmode => ?_, fun region hmode hopen => ?_,
    fun region hmode => ?_⟩ <;> obtain ⟨size, cs, mode⟩ := s <;> cases hmode <;> cases hrest
  · cases htake
    refine h.names _ (htokens ▸ List.mem_cons_self) rfl ?_
    have hwithin : c :: rest <:+ text := h.within
    rw [hopen] at hwithin
    simpa [Scanner.take, stepAt] using hwithin
  · cases htake
    have hfirst := h.inQuotes rfl _ (congrArg List.head? htokens)
    simpa [Scanner.take, stepAt, Region.read] using hfirst
  · -- a region that is left open lacks the token that closes it
    cases htake
    have hneeds := h.needs
    rw [htokens, tokensIn_of_none (next?_of_nil hopen)] at hneeds
    cases Nat.le_of_succ_le_succ hneeds
  · exact h.closers region rfl

/-- Line continuations in front of a token are passed over. -/
theorem exists_crosses_upcoming (mode : Mode) (cs : List Char) :
    ∃ piece, cs = piece ++ upcoming mode cs ∧ Crosses mode piece mode := by
  cases mode with
  | words => exact exists_passes_skipContinuations cs 0 0
  | name | inside | closing => exact ⟨[], rfl, passes_nil _ _⟩

/-- One step of the scanner is crossed. -/
theorem exists_crosses (h : Bracketable text s) (hnext : next? s = some (t, s')) :
    ∃ piece, s.rest = piece ++ s'.rest ∧ Crosses s.mode piece s'.mode := by
  have hcrossable := h.crossable hnext
  have hbare := h.bare t (by rw [tokensIn_of_some hnext]; exact List.mem_cons_self)
  obtain ⟨c, rest, hrest, htake⟩ := exists_of_next? hnext
  obtain ⟨front, hfront, hskip⟩ := exists_crosses_upcoming s.mode s.rest
  rw [hrest] at hcrossable hfront
  cases htake
  obtain ⟨piece, hpiece, hcross⟩ := crossing_stepAt hcrossable hbare
  refine ⟨front ++ piece, ?_, hskip.append hcross⟩
  rw [List.append_assoc, hfront, hpiece]

/-- The whole script is crossed. -/
theorem passes (h : Bracketable text s) :
    Passes s.mode.counts.1 s.mode.counts.2 s.rest 0 0 := by
  induction s using tokensFrom.induct with
  | case1 s hnone =>
    have hneeds := h.needs
    rw [tokensIn_of_none hnone] at hneeds
    obtain ⟨front, hfront, hskip⟩ := exists_crosses_upcoming s.mode s.rest
    rw [next?_eq] at hnone
    split at hnone
    · rename_i hrest
      rw [hrest, List.append_nil] at hfront
      rw [hfront]
      obtain ⟨size, cs, mode⟩ := s
      -- in any other mode tokens would have to follow
      cases mode with
      | words => exact hskip
      | name | inside | closing => cases hneeds
    · cases hnone
  | case2 s t s' hnext ih =>
    obtain ⟨piece, hpiece, hcross⟩ := h.exists_crosses hnext
    rw [hpiece]
    exact hcross.append (ih (h.next hnext))

end Bracketable

end Token.Script

/-! ## Scripts -/

namespace Tree

open Token Token.Script

variable {current nodes : List Node} {rest left : List Token}

theorem Enclosed.ne_nil {opening close : Token.Kind} {text : String}
    (h : Enclosed opening text close nodes) : nodes ≠ [] := by
  cases h with
  | braces | brackets => exact List.cons_ne_nil _ _
  | @quotes _ inner => cases inner <;> exact List.cons_ne_nil _ _

theorem Operands.of_region (region : Region) {opening closing text : Option String}
    {pos pos' pos'' : Nat}
    (h : Operands current (⟨region.openKind, opening, pos⟩ :: ⟨.string, text, pos'⟩ ::
      ⟨region.closeKind, closing, pos''⟩ :: rest) nodes left) :
    ∃ inner, Enclosed region.openKind (text.getD "") region.closeKind inner ∧
      Operands (current ++ inner) rest nodes left := by
  cases h with
  | stop hkind | blank hkind | word hkind | reference hkind => cases region <;> cases hkind
  | region _ henclosed hrest => exact ⟨_, henclosed, hrest⟩

/-- The first operand begins with the fragments that are open. -/
theorem Operands.exists_first (h : Operands current rest nodes left) (hcurrent : current ≠ []) :
    ∃ more operands, nodes = ⟨.operand, none, current ++ more⟩ :: operands := by
  have hopen (more : List Node) :
      operandOf (current ++ more) = [⟨.operand, none, current ++ more⟩] := by
    cases current with
    | nil => exact absurd rfl hcurrent
    | cons => rfl
  obtain ⟨_, _, _, hcontinued⟩ := h.exists_continued
  cases hcontinued with
  | last =>
    rw [hopen]
    exact ⟨_, _, rfl⟩
  | blank =>
    rw [hopen]
    exact ⟨_, _, rfl⟩

/-- The command that sets the variable `x`. -/
def setting (value : List Node) (more : List Node) : Node :=
  ⟨.command, some "set",
    ⟨.operand, none, [⟨.word, some "x", []⟩]⟩ :: ⟨.operand, none, value⟩ :: more⟩

section Setting

variable (region : Region) (name : String) {text : String} {inside : List Char}
  (htext : text.toList = "set x ".toList ++ region.opener :: (inside ++ [region.closer]))
include htext

/-- A region that ends where it is closed is the value that `x` is set to. -/
theorem parseScript_setting {inner : List Node}
    (hread : region.read (inside ++ [region.closer]) = (inside, [region.closer]))
    (henclosed : Enclosed region.openKind (String.ofList inside) region.closeKind inner) :
    parseScript name text = .ok ⟨.program, some name, [setting inner []]⟩ := by
  obtain ⟨size, p₁, p₂, p₃, p₄, p₅, p₆, htokens⟩ := exists_tokensIn_setRegion region inside
  obtain ⟨p₇, hclosing⟩ := exists_tokensIn_closing region size []
  have hend : tokensIn ⟨size, [], .afterPart⟩ = [] := tokensIn_of_none (next?_of_nil rfl)
  have hvalue : operandOf ([] ++ inner) = [⟨.operand, none, inner⟩] := by
    obtain ⟨node, more, rfl⟩ := List.exists_cons_of_ne_nil henclosed.ne_nil
    rfl
  rw [parseScript_eq_ok_iff, htext, htokens, hread, hclosing, hend]
  refine ⟨_, ?_, rfl⟩
  rw [setting, ← hvalue]
  exact .command rfl rfl (.blank rfl (.word rfl (.blank rfl (.region rfl henclosed .done)))) .nil

/-- A region that `x` is set to is closed, and its nodes are the first ones of the value. -/
theorem of_parseScript_setting {tree : Node} (h : parseScript name text = .ok tree) :
    (region.read (inside ++ [region.closer])).2 ≠ [] ∧
      ∃ inner others operands commands,
        Enclosed region.openKind (String.ofList (region.read (inside ++ [region.closer])).1)
          region.closeKind inner ∧
        tree = ⟨.program, some name, setting (inner ++ others) operands :: commands⟩ := by
  obtain ⟨size, p₁, p₂, p₃, p₄, p₅, p₆, htokens⟩ := exists_tokensIn_setRegion region inside
  have hstop := region.read_stop (inside ++ [region.closer])
  obtain ⟨nodes, hcommands, rfl⟩ := parseScript_eq_ok_iff.1 h
  rw [htext, htokens] at hcommands
  generalize region.read (inside ++ [region.closer]) = read at hstop hcommands ⊢
  obtain ⟨text, after⟩ := read
  cases after with
  | nil =>
    rw [tokensIn_of_none (next?_of_nil rfl)] at hcommands
    obtain ⟨-, -, -, -, hneeds, -⟩ := hcommands.complete
    cases region <;> exact absurd hneeds (Nat.not_succ_le_self 1)
  | cons c more =>
    obtain rfl : c = region.closer := hstop c rfl
    obtain ⟨p₇, hclosing⟩ := exists_tokensIn_closing region size more
    rw [hclosing] at hcommands
    obtain ⟨_, _, commands, rfl, hoperands⟩ := hcommands.of_word
    obtain ⟨_, hnone, hoperands⟩ := hoperands.of_blank
    obtain ⟨_, hx, hoperands⟩ := hoperands.of_word.of_blank
    obtain ⟨inner, henclosed, hoperands⟩ := hoperands.of_region region
    obtain ⟨others, operands, hfirst⟩ := hoperands.exists_first henclosed.ne_nil
    refine ⟨List.cons_ne_nil _ _, inner, others, operands, commands, henclosed, ?_⟩
    rw [hnone, hx, hfirst]
    rfl

end Setting

/-- The program that sets the variable `x` to what a script returns. -/
def assignment (name script : String) : Node :=
  ⟨.program, some name, [⟨.command, some "set",
    [⟨.operand, none, [⟨.word, some "x", []⟩]⟩, ⟨.operand, none, [⟨.program, some script, []⟩]⟩]⟩]⟩

/-- Between the brackets of an assignment, exactly the texts that fit are read as one script. -/
theorem parseScript_assignment_iff (name script : String) :
    parseScript name ("set x [" ++ script ++ "]") = .ok (assignment name script) ↔
      FitsBrackets script.toList := by
  have htext : ("set x [" ++ script ++ "]").toList =
      "set x ".toList ++ '[' :: (script.toList ++ [']']) := by
    simp [String.toList_append]
  constructor
  · intro h
    obtain ⟨-, inner, others, _, _, henclosed, htree⟩ :=
      of_parseScript_setting .brackets name htext h
    have hsplit := readBracketed_append 0 0 (script.toList ++ [']'])
    change Enclosed _ (String.ofList (readBracketed 0 0 (script.toList ++ [']'])).1) _ _
      at henclosed
    rw [FitsBrackets]
    generalize readBracketed 0 0 (script.toList ++ [']']) = read at hsplit henclosed ⊢
    cases henclosed
    cases htree
    rw [String.toList_ofList] at hsplit ⊢
    exact Prod.ext rfl (List.append_cancel_left hsplit)
  · intro hfits
    have henclosed := Enclosed.brackets (String.ofList script.toList)
    rw [parseScript_setting .brackets name htext hfits henclosed, String.ofList_toList]
    rfl

/-- A script whose bare tokens hold no delimiter can be set between brackets exactly if it fits
there. It does if its references are closed and each of its quoted words fits by itself. -/
theorem parseScript_assignment {name script : String} {tree : Node}
    (h : parseScript name script = .ok tree)
    (hbare : ∀ t ∈ tokens script, t.kind ∈ bareKinds → Undelimited (t.text.getD "").toList) :
    (parseScript name ("set x [" ++ script ++ "]") = .ok (assignment name script) ↔
      FitsBrackets script.toList) ∧
    ((∀ t ∈ tokens script, t.kind = .name →
        ¬ '{' :: (t.text.getD "").toList <:+ script.toList) →
      ((tokens script).IsChain fun t u => t.kind = .leftQuote →
        FitsBrackets (u.text.getD "").toList) →
      parseScript name ("set x [" ++ script ++ "]") = .ok (assignment name script)) := by
  obtain ⟨nodes, hcommands, -⟩ := parseScript_eq_ok_iff.1 h
  have hsub : tokensIn (.start script.toList .initial) <+: tokens script :=
    List.takeWhile_prefix _
  refine ⟨parseScript_assignment_iff name script, fun hnames hquoted => ?_⟩
  have hbracketable : Bracketable script.toList (.start script.toList .initial) := {
    within := List.suffix_rfl
    bare := fun t ht => hbare t (hsub.subset ht)
    names := fun t ht => hnames t (hsub.subset ht)
    quoted := hquoted.prefix hsub
    inQuotes := nofun
    closers := nofun
    needs := Nat.zero_le _
    complete := hcommands.complete }
  exact (parseScript_assignment_iff name script).2 hbracketable.passes.fitsBrackets

/-- A comment, brackets in braces, braces in brackets, and a quoted word that holds both. -/
theorem parseScript_assignment_nested :
    let script :=
      "# all\n set y [list \x7ba ] [\x7b\"\x7d\x7d b]; puts \"[f \x7b]\x7d] \x7bb\x7d c\"$z"
    (∀ t ∈ tokens script, t.kind ∈ bareKinds → Undelimited (t.text.getD "").toList) ∧
      parseScript "main" ("set x [" ++ script ++ "]") = .ok (assignment "main" script) := by
  intro script
  have hok : (parseScript "main" script).isOk = true := by decide +kernel
  have hbare : ∀ t ∈ tokens script, t.kind ∈ bareKinds → Undelimited (t.text.getD "").toList := by
    decide +kernel
  have hnames : ∀ t ∈ tokens script, t.kind = .name →
      ¬ '{' :: (t.text.getD "").toList <:+ script.toList := by
    decide +kernel
  have hquoted : (tokens script).IsChain fun t u => t.kind = .leftQuote →
      FitsBrackets (u.text.getD "").toList := by
    decide +kernel
  cases h : parseScript "main" script with
  | error e =>
    rw [h] at hok
    cases hok
  | ok tree => exact ⟨hbare, (parseScript_assignment h hbare).2 hnames hquoted⟩

/-- Brackets are counted in quoted words too, and not at all behind a brace that is left open. -/
theorem parseScript_assignment_unclosed :
    let quoted := "puts \"]\""
    let reference := "puts $\x7babc"
    ((parseScript "main" quoted).isOk = true ∧
      (∀ t ∈ tokens quoted, t.kind ∈ bareKinds → Undelimited (t.text.getD "").toList) ∧
      parseScript "main" ("set x [" ++ quoted ++ "]") ≠ .ok (assignment "main" quoted)) ∧
    (parseScript "main" reference).isOk = true ∧
      (∀ t ∈ tokens reference, t.kind ∈ bareKinds → Undelimited (t.text.getD "").toList) ∧
      parseScript "main" ("set x [" ++ reference ++ "]") ≠ .ok (assignment "main" reference) := by
  decide +kernel

end Tree

end Tickle
