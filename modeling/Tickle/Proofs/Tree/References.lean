import Tickle.Proofs.Text.NameChars
import Tickle.Proofs.Tree.JoinedScripts
import Tickle.Proofs.Tree.SubstitutionText
import Tickle.Scope.VarName

/-! # References and elements in scripts

Words of name characters and parentheses, and references to variables between them, are read as
they are written: an element `a($i)` as the text `a(`, the reference and the text `)`, and the
reference `$a($i)` as one name, index and all. -/

namespace Tickle

open Tickle.Text

/-! ## Characters -/

/-- May stand in a written element. -/
def isElementChar (c : Char) : Bool := isNameChar c || c == '(' || c == ')'

theorem ne_of_isElementChar {c d : Char} (hc : isElementChar c = true)
    (hd : isElementChar d = false) : c ≠ d := by
  rintro rfl
  cases hc.symm.trans hd

theorem isBlank_of_isElementChar {c : Char} (h : isElementChar c = true) : isBlank c = false := by
  unfold isElementChar at h
  rcases (by simpa [or_assoc] using h : isNameChar c = true ∨ c = '(' ∨ c = ')') with h | rfl | rfl
  · exact isBlank_of_isNameChar h
  · rfl
  · rfl

theorem isElementChar_of_isNameChar {c : Char} (h : isNameChar c = true) :
    isElementChar c = true := by
  simp [isElementChar, h]

theorem isLineEnd_of_isElementChar {c : Char} (h : isElementChar c = true) :
    isLineEnd c = false := by
  cases hline : isLineEnd c with
  | false => rfl
  | true => cases (isBlank_of_isLineEnd hline).symm.trans (isBlank_of_isElementChar h)

/-! ## Words -/

namespace Reader

theorem startsName_of_ne {c : Char} (hc : c ≠ '$') (rest : List Char) :
    startsName (c :: rest) = false := by
  unfold startsName
  split
  · rename_i heq
    exact absurd (List.cons.inj heq).1 hc
  · rfl

theorem startsName_dollar {c : Char} (hc : isNameChar c = true) (rest : List Char) :
    startsName ('$' :: c :: rest) = true := by
  simp [startsName, hc]

/-- Plain text ends in front of a space. -/
theorem readPlain_space (rest : List Char) :
    readPlain Token.Script.endsWord (' ' :: rest) = ([], ' ' :: rest) := by
  rw [readPlain_cons_of_ne (by decide)]
  rfl

/-- Plain text ends in front of a reference. -/
theorem readPlain_dollar {c : Char} (hc : isNameChar c = true) (rest : List Char) :
    readPlain Token.Script.endsWord ('$' :: c :: rest) = ([], '$' :: c :: rest) := by
  rw [readPlain_cons_of_ne (by decide), startsName_dollar hc, Bool.or_true]
  rfl

/-- A word is read up to where plain text ends. -/
theorem readPlain_of_isElementChar {cs rest : List Char}
    (hcs : ∀ c ∈ cs, isElementChar c = true)
    (hrest : readPlain Token.Script.endsWord rest = ([], rest)) :
    readPlain Token.Script.endsWord (cs ++ rest) = (cs, rest) := by
  induction cs with
  | nil => exact hrest
  | cons c cs ih =>
    obtain ⟨hc, hcs⟩ := List.forall_mem_cons.1 hcs
    have hends : Token.Script.endsWord c = false := by
      have hsemicolon := ne_of_isElementChar (d := ';') hc rfl
      have hbracket := ne_of_isElementChar (d := '[') hc rfl
      simp [Token.Script.endsWord, isBlank_of_isElementChar hc, hsemicolon, hbracket]
    have hname := startsName_of_ne (ne_of_isElementChar (d := '$') hc rfl) (cs ++ rest)
    rw [List.cons_append, readPlain_cons_of_ne (ne_of_isElementChar hc rfl), hends, hname,
      ih hcs]
    rfl

end Reader

namespace Token.Script

open Reader

theorem exists_tokensIn_cons {c : Char} (hc : c ≠ '\\') {mode : Mode} {rest : List Char}
    {step : Step Mode} (h : stepAt mode c rest = step) (size : Nat) :
    ∃ pos, tokensIn ⟨size, c :: rest, mode⟩ =
      ⟨step.kind, some step.text, pos⟩ :: tokensIn ⟨size, step.rest, step.mode⟩ := by
  subst h
  exact ⟨_, tokensIn_of_some (next?_of_cons size mode hc rest)⟩

theorem exists_tokensIn_word {c : Char} {cs rest : List Char}
    (hcs : ∀ d ∈ c :: cs, isElementChar d = true)
    (hrest : readPlain endsWord rest = ([], rest)) (size : Nat) (wordStart commandStart : Bool) :
    ∃ pos, tokensIn ⟨size, c :: (cs ++ rest), .words wordStart commandStart⟩ =
      ⟨.word, some (String.ofList (c :: cs)), pos⟩ ::
        tokensIn ⟨size, rest, .words false false⟩ := by
  have hc : isElementChar c = true := hcs c List.mem_cons_self
  have hplain := readPlain_of_isElementChar hcs hrest
  have hstep : stepAt (.words wordStart commandStart) c (cs ++ rest) =
      ⟨.word, String.ofList (c :: cs), rest, .afterPart⟩ := by
    have hsemicolon := ne_of_isElementChar (d := ';') hc rfl
    have hcomment := ne_of_isElementChar (d := '#') hc rfl
    have hbracket := ne_of_isElementChar (d := '[') hc rfl
    have hbrace := ne_of_isElementChar (d := '\x7b') hc rfl
    have hquote := ne_of_isElementChar (d := '"') hc rfl
    have hname := startsName_of_ne (ne_of_isElementChar (d := '$') hc rfl) (cs ++ rest)
    rw [List.cons_append] at hplain
    simp [stepAt, readWord, isLineEnd_of_isElementChar hc, isBlank_of_isElementChar hc, hsemicolon,
      hcomment, hbracket, hbrace, hquote, hname, hplain]
  exact exists_tokensIn_cons (ne_of_isElementChar hc rfl) hstep size

theorem exists_tokensIn_space (size : Nat) (wordStart commandStart : Bool) (rest : List Char) :
    ∃ pos, tokensIn ⟨size, ' ' :: rest, .words wordStart commandStart⟩ =
      ⟨.blank, some " ", pos⟩ ::
        tokensIn ⟨size, skipLineBlanks rest, .words true commandStart⟩ := by
  have hstep : stepAt (.words wordStart commandStart) ' ' rest =
      ⟨.blank, " ", skipLineBlanks rest, .words true commandStart⟩ :=
    readWord_of_isBlank rfl rfl rest
  exact exists_tokensIn_cons (by decide) hstep size

theorem skipLineBlanks_of_isBlank {c : Char} (hc : isBlank c = false) (rest : List Char) :
    skipLineBlanks (c :: rest) = c :: rest := by
  rw [skipLineBlanks_cons, hc]
  rfl

theorem exists_tokensIn_reference {c : Char} {cs name rest : List Char} (hc : isNameChar c = true)
    (hname : readName (c :: cs) = (name, rest)) (size : Nat) (wordStart commandStart : Bool) :
    ∃ pos pos', tokensIn ⟨size, '$' :: c :: cs, .words wordStart commandStart⟩ =
      ⟨.dollar, some "$", pos⟩ :: ⟨.name, some (String.ofList name), pos'⟩ ::
        tokensIn ⟨size, rest, .words false false⟩ := by
  have hdollar : stepAt (.words wordStart commandStart) '$' (c :: cs) =
      ⟨.dollar, "$", c :: cs, .name⟩ := by
    simp [stepAt, readWord, startsName_dollar hc, show isLineEnd '$' = false from rfl,
      show isBlank '$' = false from rfl]
  have hread : stepAt .name c cs = ⟨.name, String.ofList name, rest, .afterPart⟩ := by
    rw [stepAt, hname]
  obtain ⟨pos, hpos⟩ := exists_tokensIn_cons (by decide) hdollar size
  obtain ⟨pos', hpos'⟩ := exists_tokensIn_cons (ne_of_isNameChar hc rfl) hread size
  exact ⟨pos, pos', hpos.trans (congrArg _ hpos')⟩

/-- The opening of a region and its inside. -/
theorem exists_tokensIn_region (region : Region) (size : Nat) (commandStart : Bool) (c : Char)
    (rest : List Char) :
    ∃ pos pos', tokensIn ⟨size, region.opener :: c :: rest, .words true commandStart⟩ =
      ⟨region.openKind, some region.opener.toString, pos⟩ ::
        ⟨.string, some (String.ofList (region.read (c :: rest)).1), pos'⟩ ::
          tokensIn ⟨size, (region.read (c :: rest)).2, .closing region⟩ := by
  have hopen : stepAt (.words true commandStart) region.opener (c :: rest) =
      openRegion region (c :: rest) := by
    cases region <;> rfl
  have hinside : next? ⟨size, c :: rest, .inside region⟩ = some (Scanner.take
      ⟨size, c :: rest, .inside region⟩ (stepAt (.inside region) c rest)) := rfl
  have hne : region.opener ≠ '\\' := by cases region <;> decide
  obtain ⟨pos, hpos⟩ := exists_tokensIn_cons hne hopen size
  exact ⟨pos, _, hpos.trans (congrArg _ (tokensIn_of_some hinside))⟩

theorem exists_tokensIn_closing (region : Region) (size : Nat) (rest : List Char) :
    ∃ pos, tokensIn ⟨size, region.closer :: rest, .closing region⟩ =
      ⟨region.closeKind, some region.closer.toString, pos⟩ ::
        tokensIn ⟨size, rest, .afterPart⟩ := by
  have hne : region.closer ≠ '\\' := by cases region <;> decide
  exact exists_tokensIn_cons hne rfl size

end Token.Script

/-! ## Names -/

namespace Reader

theorem readIndex_of_not_mem {index rest : List Char} (hopen : '(' ∉ index) (hclose : ')' ∉ index) :
    readIndex 1 (index ++ ')' :: rest) = (index ++ [')'], rest) := by
  induction index with
  | nil => rfl
  | cons c index ih =>
    obtain ⟨hc, hopen⟩ := not_or.1 (mt List.mem_cons.2 hopen)
    obtain ⟨hc', hclose⟩ := not_or.1 (mt List.mem_cons.2 hclose)
    rw [List.cons_append, readIndex, if_neg (Ne.symm hc), if_neg (Ne.symm hc'), ih hopen hclose]
    rfl

theorem readName_of_ne {c : Char} (hc : c ≠ '\x7b') (cs : List Char) :
    readName (c :: cs) =
      match (c :: cs).dropWhile isNameChar with
      | '(' :: rest =>
        ((c :: cs).takeWhile isNameChar ++ (readIndex 0 ('(' :: rest)).1,
          (readIndex 0 ('(' :: rest)).2)
      | rest => ((c :: cs).takeWhile isNameChar, rest) := by
  rw [readName.eq_def]
  split
  · rename_i heq
    exact absurd (List.cons.inj heq).1 hc
  · rfl

/-- A name ends in front of what belongs to no name and starts no index. -/
theorem readName_of_isNameChar {c : Char} {cs rest : List Char}
    (hcs : ∀ d ∈ c :: cs, isNameChar d = true)
    (hrest : ∀ d ∈ rest.head?, isNameChar d = false ∧ d ≠ '(') :
    readName (c :: (cs ++ rest)) = (c :: cs, rest) := by
  have hc := ne_of_isNameChar (d := '\x7b') (hcs c List.mem_cons_self) rfl
  rw [readName_of_ne hc, ← List.cons_append, List.takeWhile_append_of_pos hcs,
    List.dropWhile_append_of_pos hcs]
  cases rest with
  | nil => simp
  | cons d rest =>
    obtain ⟨hd, hparen⟩ := hrest d rfl
    simp [hd, hparen]

/-- A name is read with its index. -/
theorem readName_of_index {c : Char} {cs index : List Char}
    (hcs : ∀ d ∈ c :: cs, isNameChar d = true) (hopen : '(' ∉ index) (hclose : ')' ∉ index)
    (rest : List Char) :
    readName (c :: (cs ++ '(' :: (index ++ ')' :: rest))) =
      (c :: (cs ++ '(' :: (index ++ [')'])), rest) := by
  have hc := ne_of_isNameChar (d := '\x7b') (hcs c List.mem_cons_self) rfl
  have htake : (c :: (cs ++ '(' :: (index ++ ')' :: rest))).takeWhile isNameChar = c :: cs := by
    rw [← List.cons_append, List.takeWhile_append_of_pos hcs,
      List.takeWhile_cons_of_neg (by decide), List.append_nil]
  have hdrop : (c :: (cs ++ '(' :: (index ++ ')' :: rest))).dropWhile isNameChar =
      '(' :: (index ++ ')' :: rest) := by
    rw [← List.cons_append, List.dropWhile_append_of_pos hcs,
      List.dropWhile_cons_of_neg (by decide)]
  have hindex : readIndex 0 ('(' :: (index ++ ')' :: rest)) = ('(' :: (index ++ [')']), rest) := by
    rw [readIndex, if_pos rfl, readIndex_of_not_mem hopen hclose]
    rfl
  rw [readName_of_ne hc, htake, hdrop]
  simp only [hindex, List.cons_append]

end Reader

/-! ## Written variables -/

/-- A text of name characters. -/
structure IsVarText (text : String) : Prop where
  nonempty : text ≠ ""
  chars : ∀ c ∈ text.toList, isNameChar c = true

theorem isVarText_of_all {text : String}
    (h : (!text.toList.isEmpty && text.toList.all isNameChar) = true) : IsVarText text := by
  obtain ⟨hnonempty, hall⟩ := Bool.and_eq_true_iff.1 h
  refine ⟨?_, List.all_eq_true.1 hall⟩
  rintro rfl
  cases hnonempty

theorem IsVarText.exists_cons {text : String} (h : IsVarText text) :
    ∃ c cs, text.toList = c :: cs ∧ ∀ d ∈ c :: cs, isNameChar d = true := by
  obtain ⟨c, cs, hcs⟩ := List.exists_cons_of_ne_nil (mt String.toList_eq_nil_iff.1 h.nonempty)
  exact ⟨c, cs, hcs, hcs ▸ h.chars⟩

/-- A scalar, or an element with a literal index, in name characters. -/
def VarName.IsPlain : VarName → Prop
  | .scalar name => IsVarText name
  | .element array index => IsVarText array ∧ ∀ c ∈ index.toList, isNameChar c = true

/-- A reference is read as it is written in front of what belongs to no name. -/
theorem VarName.IsPlain.readName {name : VarName} (h : name.IsPlain) {d : Char}
    (hd : isNameChar d = false ∧ d ≠ '(') (rest : List Char) :
    ∃ c cs, name.text.toList = c :: cs ∧ isNameChar c = true ∧
      Reader.readName (c :: (cs ++ d :: rest)) = (name.text.toList, d :: rest) := by
  cases name with
  | scalar name =>
    obtain ⟨c, cs, hcs, hname⟩ := IsVarText.exists_cons h
    refine ⟨c, cs, hcs, hname c List.mem_cons_self, ?_⟩
    have hends : ∀ e ∈ (d :: rest).head?, isNameChar e = false ∧ e ≠ '(' := by
      rintro _ ⟨⟩
      exact hd
    rw [Reader.readName_of_isNameChar hname hends, VarName.text, hcs]
  | element array index =>
    obtain ⟨c, cs, hcs, hname⟩ := h.1.exists_cons
    have hopen := not_mem_of_isNameChar h.2 (d := '(') (by decide)
    have hclose := not_mem_of_isNameChar h.2 (d := ')') (by decide)
    have htext : (VarName.element array index).text.toList =
        c :: (cs ++ '(' :: (index.toList ++ [')'])) := by
      simp [VarName.text, String.toList_append, hcs]
    refine ⟨c, _, htext, hname c List.mem_cons_self, ?_⟩
    have hread := Reader.readName_of_index hname hopen hclose (d :: rest)
    rw [htext]
    simpa using hread

namespace Token.Script

open Reader

/-- The word of a command is followed by its operands. -/
theorem exists_tokensIn_command {word : String} (hword : IsVarText word) {c : Char}
    (hc : isBlank c = false) (size : Nat) (rest : List Char) :
    ∃ pos pos', tokensIn ⟨size, word.toList ++ ' ' :: c :: rest, .initial⟩ =
      ⟨.word, some word, pos⟩ :: ⟨.blank, some " ", pos'⟩ ::
        tokensIn ⟨size, c :: rest, .words true false⟩ := by
  obtain ⟨d, ds, hds, hchars⟩ := hword.exists_cons
  obtain ⟨pos, hpos⟩ := exists_tokensIn_word
    (fun e he => isElementChar_of_isNameChar (hchars e he)) (readPlain_space (c :: rest)) size
    true true
  obtain ⟨pos', hpos'⟩ := exists_tokensIn_space size false false (c :: rest)
  rw [skipLineBlanks_of_isBlank hc] at hpos'
  rw [← hds, String.ofList_toList] at hpos
  refine ⟨pos, pos', ?_⟩
  rw [hds, List.cons_append]
  exact hpos.trans (congrArg _ hpos')

/-- An element whose index is a reference is read in three parts. -/
theorem exists_tokensIn_element {array : String} (harray : IsVarText array) {index : VarName}
    (hindex : index.IsPlain) (size : Nat) (rest : List Char) :
    ∃ p₁ p₂ p₃ p₄ p₅, tokensIn ⟨size,
        array.toList ++ '(' :: '$' :: (index.text.toList ++ ')' :: ' ' :: rest),
        .words true false⟩ =
      ⟨.word, some (array ++ "("), p₁⟩ :: ⟨.dollar, some "$", p₂⟩ ::
        ⟨.name, some index.text, p₃⟩ :: ⟨.word, some ")", p₄⟩ :: ⟨.blank, some " ", p₅⟩ ::
          tokensIn ⟨size, skipLineBlanks rest, .words true false⟩ := by
  obtain ⟨c, cs, hcs, hchars⟩ := harray.exists_cons
  obtain ⟨d, ds, hds, hd, hread⟩ := hindex.readName (d := ')') (by decide) (' ' :: rest)
  have hword : ∀ e ∈ c :: (cs ++ ['(']), isElementChar e = true := by
    intro e he
    rw [← List.cons_append, List.mem_append, List.mem_singleton] at he
    rcases he with he | rfl
    · exact isElementChar_of_isNameChar (hchars e he)
    · rfl
  have htext : String.ofList (c :: (cs ++ ['('])) = array ++ "(" := by
    rw [← String.toList_inj, String.toList_ofList, String.toList_append, hcs]
    rfl
  obtain ⟨p₁, h₁⟩ := exists_tokensIn_word hword
    (readPlain_dollar hd (ds ++ ')' :: ' ' :: rest)) size true false
  obtain ⟨p₂, p₃, h₂⟩ := exists_tokensIn_reference hd hread size false false
  have hclose : ∀ e ∈ [')'], isElementChar e = true := List.forall_mem_singleton.2 rfl
  obtain ⟨p₄, h₄⟩ := exists_tokensIn_word hclose (readPlain_space rest) size false false
  obtain ⟨p₅, h₅⟩ := exists_tokensIn_space size false false rest
  refine ⟨p₁, p₂, p₃, p₄, p₅, ?_⟩
  rw [htext] at h₁
  rw [String.ofList_toList] at h₂
  have hchars : array.toList ++ '(' :: '$' :: (index.text.toList ++ ')' :: ' ' :: rest) =
      c :: (cs ++ ['('] ++ '$' :: d :: (ds ++ ')' :: ' ' :: rest)) := by
    simp [hcs, hds]
  rw [hchars, h₁, h₂, ← h₅]
  exact congrArg _ (congrArg _ (congrArg _ h₄))

/-- Behind the words of an assignment to `x` its value is expected. -/
theorem exists_tokensIn_set {c : Char} (hc : isBlank c = false) (size : Nat) (rest : List Char) :
    ∃ p₁ p₂ p₃ p₄, tokensIn ⟨size, "set x ".toList ++ c :: rest, .initial⟩ =
      ⟨.word, some "set", p₁⟩ :: ⟨.blank, some " ", p₂⟩ :: ⟨.word, some "x", p₃⟩ ::
        ⟨.blank, some " ", p₄⟩ :: tokensIn ⟨size, c :: rest, .words true false⟩ := by
  have hword : IsVarText "set" := isVarText_of_all (by decide)
  obtain ⟨p₁, p₂, hset⟩ := exists_tokensIn_command hword (c := 'x') rfl size
    ([] ++ ' ' :: c :: rest)
  obtain ⟨p₃, hx⟩ := exists_tokensIn_word (c := 'x') (List.forall_mem_singleton.2 rfl)
    (readPlain_space (c :: rest)) size true false
  obtain ⟨p₄, hblank⟩ := exists_tokensIn_space size false false (c :: rest)
  rw [skipLineBlanks_of_isBlank hc] at hblank
  refine ⟨p₁, p₂, p₃, p₄, ?_⟩
  rw [show "set x ".toList ++ c :: rest = "set".toList ++ ' ' :: 'x' :: ([] ++ ' ' :: c :: rest)
    from rfl, hset, hx, hblank]

/-- The tokens of a region behind the words of an assignment. -/
theorem exists_tokensIn_setRegion (region : Region) (inside : List Char) :
    ∃ size p₁ p₂ p₃ p₄ p₅ p₆,
      tokensIn (.start ("set x ".toList ++ region.opener :: (inside ++ [region.closer]))
          .initial) =
        ⟨.word, some "set", p₁⟩ :: ⟨.blank, some " ", p₂⟩ :: ⟨.word, some "x", p₃⟩ ::
          ⟨.blank, some " ", p₄⟩ :: ⟨region.openKind, some region.opener.toString, p₅⟩ ::
            ⟨.string, some (String.ofList (region.read (inside ++ [region.closer])).1), p₆⟩ ::
              tokensIn ⟨size, (region.read (inside ++ [region.closer])).2, .closing region⟩ := by
  have hopener : isBlank region.opener = false := by cases region <;> rfl
  obtain ⟨c, rest, hcons⟩ : ∃ c rest, inside ++ [region.closer] = c :: rest :=
    List.exists_cons_of_ne_nil (by simp)
  rw [Scanner.start, hcons]
  generalize List.length _ = size
  obtain ⟨p₁, p₂, p₃, p₄, hset⟩ := exists_tokensIn_set hopener size (c :: rest)
  obtain ⟨p₅, p₆, hregion⟩ := exists_tokensIn_region region size false c rest
  exact ⟨size, p₁, p₂, p₃, p₄, p₅, p₆, by rw [hset, hregion]⟩

end Token.Script

/-! ## Scripts -/

namespace Tree

open Token Token.Script

theorem Commands.of_word {text : Option String} {pos : Nat} {rest : List Token} {nodes : List Node}
    (h : Commands (⟨.word, text, pos⟩ :: rest) nodes) :
    ∃ operands left more, nodes = ⟨.command, text, operands⟩ :: more ∧
      Operands [] rest operands left := by
  cases h with
  | separator hkind => cases hkind
  | command _ _ hoperands _ => exact ⟨_, _, _, rfl, hoperands⟩

variable {current nodes : List Node} {text : Option String} {pos : Nat} {rest left : List Token}

theorem Operands.of_word (h : Operands current (⟨.word, text, pos⟩ :: rest) nodes left) :
    Operands (current ++ [⟨.word, text, []⟩]) rest nodes left := by
  cases h with
  | stop hkind => cases hkind
  | blank hkind => cases hkind
  | word _ h => exact h
  | reference hkind => cases hkind
  | region _ henclosed => cases henclosed

theorem Operands.of_blank (h : Operands current (⟨.blank, text, pos⟩ :: rest) nodes left) :
    ∃ more, nodes = operandOf current ++ more ∧ Operands [] rest more left := by
  cases h with
  | stop hkind => cases hkind
  | blank _ h => exact ⟨_, rfl, h⟩
  | word hkind => cases hkind
  | reference hkind => cases hkind
  | region _ henclosed => cases henclosed

theorem Operands.of_reference {dollar : Option String} {pos' : Nat}
    (h : Operands current (⟨.dollar, dollar, pos'⟩ :: ⟨.name, text, pos⟩ :: rest) nodes left) :
    Operands (current ++ [⟨.name, text, []⟩]) rest nodes left := by
  cases h with
  | stop hkind => cases hkind
  | blank hkind => cases hkind
  | word hkind => cases hkind
  | reference _ _ h => exact h
  | region _ henclosed => cases henclosed

/-! ### Operands -/

/-- The operand that an element whose index is a reference is read as. -/
def elementOperand (array : String) (index : VarName) : Node :=
  ⟨.operand, none,
    [⟨.word, some (array ++ "("), []⟩, ⟨.name, some index.text, []⟩, ⟨.word, some ")", []⟩]⟩

/-- The operand that a reference is read as. -/
def referenceOperand (text : String) : Node := ⟨.operand, none, [⟨.name, some text, []⟩]⟩

/-- The first operand of a command, if it is written as an element whose index is a reference. -/
theorem elementOperand_of_parseScript {name word array more : String} {index : VarName}
    {text : Option String} {operand : Node} {operands commands : List Node}
    (hword : IsVarText word) (harray : IsVarText array) (hindex : index.IsPlain)
    (h : parseScript name (word ++ " " ++ array ++ "($" ++ index.text ++ ") " ++ more) =
      .ok ⟨.program, some name, ⟨.command, text, operand :: operands⟩ :: commands⟩) :
    operand = elementOperand array index := by
  obtain ⟨nodes, hcommands, hnodes⟩ := parseScript_eq_ok_iff.1 h
  cases hnodes
  obtain ⟨c, cs, hcs, hchars⟩ := harray.exists_cons
  have htext : (word ++ " " ++ array ++ "($" ++ index.text ++ ") " ++ more).toList =
      word.toList ++ ' ' :: (array.toList ++ '(' :: '$' :: (index.text.toList ++
        ')' :: ' ' :: more.toList)) := by
    simp [String.toList_append]
  have hblank := isBlank_of_isNameChar (hchars c List.mem_cons_self)
  rw [Scanner.start, htext] at hcommands
  generalize List.length _ = size at hcommands
  obtain ⟨p₁, p₂, hfront⟩ := exists_tokensIn_command hword hblank size
    (cs ++ '(' :: '$' :: (index.text.toList ++ ')' :: ' ' :: more.toList))
  obtain ⟨p₃, p₄, p₅, p₆, p₇, helement⟩ := exists_tokensIn_element harray hindex size more.toList
  rw [← List.cons_append, ← hcs, helement] at hfront
  rw [hfront] at hcommands
  obtain ⟨_, left, _, hnodes, hoperands⟩ := hcommands.of_word
  cases hnodes
  obtain ⟨_, hnone, hoperands⟩ := hoperands.of_blank
  obtain ⟨_, hfirst, _⟩ := hoperands.of_word.of_reference.of_word.of_blank
  exact (List.cons.inj (hnone.trans hfirst)).1

/-- A reference to an element, with a reference as its index, is read as one name. -/
theorem parseScript_reference {word array index : String} (name : String) (hword : IsVarText word)
    (harray : IsVarText array) (hindex : IsVarText index) :
    parseScript name (word ++ " $" ++ array ++ "($" ++ index ++ ")") =
      .ok ⟨.program, some name,
        [⟨.command, some word, [referenceOperand (array ++ "($" ++ index ++ ")")]⟩]⟩ := by
  obtain ⟨c, cs, hcs, hchars⟩ := harray.exists_cons
  have htext : (word ++ " $" ++ array ++ "($" ++ index ++ ")").toList =
      word.toList ++ ' ' :: '$' :: c :: (cs ++ '(' :: ('$' :: index.toList ++ ')' :: [])) := by
    simp [String.toList_append, hcs]
  have hopen : '(' ∉ '$' :: index.toList := by
    simpa using not_mem_of_isNameChar hindex.chars (d := '(') (by decide)
  have hclose : ')' ∉ '$' :: index.toList := by
    simpa using not_mem_of_isNameChar hindex.chars (d := ')') (by decide)
  have hread := Reader.readName_of_index hchars hopen hclose []
  have hname : String.ofList (c :: (cs ++ '(' :: ('$' :: index.toList ++ [')']))) =
      array ++ "($" ++ index ++ ")" := by
    simp [← String.toList_inj, String.toList_append, hcs]
  refine parseScript_eq_ok_iff.2 ⟨_, ?_, rfl⟩
  rw [Scanner.start, htext]
  generalize List.length _ = size
  obtain ⟨p₁, p₂, hfront⟩ := exists_tokensIn_command hword (c := '$') rfl size
    (c :: (cs ++ '(' :: ('$' :: index.toList ++ [')'])))
  obtain ⟨p₃, p₄, href⟩ := exists_tokensIn_reference (hchars c List.mem_cons_self) hread size
    true false
  have hend : tokensIn ⟨size, [], .words false false⟩ = [] := tokensIn_of_none (next?_of_nil rfl)
  rw [hname, hend] at href
  rw [hfront, href]
  exact .command rfl rfl (.blank rfl (.reference rfl rfl .done)) .nil

/-! ### Substitution text -/

/-- A reference by itself is read as one name. -/
theorem parseSubstitution_reference {text : String} (h : IsVarText text) :
    parseSubstitution ("$" ++ text) = .ok ⟨.list, none, [⟨.name, some text, []⟩]⟩ := by
  obtain ⟨c, cs, hcs, hchars⟩ := h.exists_cons
  have htext : ("$" ++ text).toList = '$' :: c :: cs := by simp [String.toList_append, hcs]
  have hstart := Reader.startsName_dollar (hchars c List.mem_cons_self) cs
  have hread : Reader.readName (c :: cs) = (text.toList, []) := by
    have hplain : Reader.readName (c :: (cs ++ [])) = (c :: cs, []) :=
      Reader.readName_of_isNameChar hchars nofun
    rw [List.append_nil] at hplain
    rw [hplain, hcs]
  rw [parseSubstitution_eq, Scanner.start, htext]
  generalize List.length _ = size
  obtain ⟨_, _, htokens⟩ := Substitution.exists_tokensIn_reference hstart hread size
  rw [htokens, String.ofList_toList, Substitution.tokensIn_nil, fragments_reference, fragments_nil]
  rfl

end Tree

end Tickle
