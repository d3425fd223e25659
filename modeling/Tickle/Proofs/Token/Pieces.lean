import Tickle.Proofs.Token.NextLine
import Tickle.Token.Substitution

/-! # Tokens cut a text into pieces

The tokens of a text without a backslash stand side by side in it: the next one begins where the
piece of the last one ends, and the kind and the text of a token say how its piece is written. So
every character of the text belongs to one token, and the text can be put together again. -/

namespace Tickle

namespace Reader

/-- Plain text without a backslash is kept as written. -/
theorem readPlain_append {stop : Char → Bool} {cs : List Char} (h : '\\' ∉ cs) :
    (readPlain stop cs).1 ++ (readPlain stop cs).2 = cs := by
  induction cs with
  | nil => rw [readPlain_nil, List.append_nil]
  | cons c rest ih =>
    rw [readPlain_cons_of_ne (List.ne_of_not_mem_cons h).symm]
    split
    · rfl
    · exact congrArg (c :: ·) (ih (List.not_mem_of_not_mem_cons h))

/-- The inside of braces without a backslash is kept as written. -/
theorem readBraced_append {opened : Nat} {cs : List Char} (h : '\\' ∉ cs) :
    (readBraced false opened cs).1 ++ (readBraced false opened cs).2 = cs := by
  induction cs generalizing opened with
  | nil => rfl
  | cons c rest ih =>
    have hc : c ≠ '\\' := (List.ne_of_not_mem_cons h).symm
    have hrest : '\\' ∉ rest := List.not_mem_of_not_mem_cons h
    simp only [readBraced, hc, false_implies, implies_true, Bool.false_and, Bool.false_eq_true,
      if_false]
    split_ifs with hopen hclose hlast
    · exact congrArg (c :: ·) (ih hrest)
    · rfl
    · exact congrArg (c :: ·) (ih hrest)
    · exact congrArg (c :: ·) (ih hrest)

/-- A name is kept as written, but for the braces around it, of which the closing one may be missing
at the end of the text. -/
theorem readName_cases (cs : List Char) :
    cs = (readName cs).1 ++ (readName cs).2 ∨
      cs = '\x7b' :: ((readName cs).1 ++ '\x7d' :: (readName cs).2) ∨
      cs = '\x7b' :: (readName cs).1 ∧ (readName cs).2 = [] := by
  unfold readName
  split
  · rename_i rest
    refine .inr ?_
    have hsplit := rest.takeWhile_append_dropWhile (p := (· ≠ '\x7d'))
    have hstop := List.head?_dropWhile_not (· ≠ '\x7d') rest
    dsimp only
    cases hdrop : rest.dropWhile (· ≠ '\x7d') with
    | nil =>
      rw [hdrop, List.append_nil] at hsplit
      exact .inr ⟨congrArg _ hsplit.symm, rfl⟩
    | cons c after =>
      rw [hdrop] at hsplit hstop
      have hc : c = '\x7d' := by simpa using hstop
      rw [hc] at hsplit
      exact .inl (congrArg _ hsplit.symm)
  · refine .inl ?_
    dsimp only
    split
    · rename_i heq
      exact (takeWhile_append_readIndex heq).symm
    · exact List.takeWhile_append_dropWhile.symm

theorem eq_of_startsName {c : Char} {rest : List Char} (h : startsName (c :: rest) = true) :
    c = '$' := by
  unfold startsName at h
  split at h
  · rename_i heq
    exact (List.cons.inj heq).1
  · cases h

/-! ## Regions are read up to their end -/

theorem readBraced_stop (eliding : Bool) (opened : Nat) (cs : List Char) :
    ∀ c ∈ (readBraced eliding opened cs).2.head?, c = '\x7d' := by
  fun_induction readBraced eliding opened cs with
  | case1 => simp
  | case6 => simp
  | case2 | case3 | case4 | case5 | case7 | case8 =>
    rename_i ih
    exact ih

theorem readBracketed_stop (opened braces : Nat) (cs : List Char) :
    ∀ c ∈ (readBracketed opened braces cs).2.head?, c = ']' := by
  fun_induction readBracketed opened braces cs with
  | case1 => simp
  | case6 => simp_all
  | case2 | case3 | case4 | case5 | case7 | case8 =>
    rename_i ih
    exact ih

theorem readQuoted_stop (opened : Nat) (cs : List Char) :
    ∀ c ∈ (readQuoted opened cs).2.head?, c = '"' := by
  fun_induction readQuoted opened cs with
  | case1 => simp
  | case5 => simp_all
  | case2 | case3 | case4 | case6 =>
    rename_i ih
    exact ih

end Reader

namespace Token

open Tickle.Text Tickle.Reader

/-! ## Pieces of a text -/

/-- Kinds of tokens that are always written in the same way. -/
def signs : List (Kind × Char) :=
  [(.dollar, '$'), (.semicolon, ';'), (.leftBrace, '\x7b'), (.rightBrace, '\x7d'),
   (.leftBracket, '['), (.rightBracket, ']'), (.leftQuote, '"'), (.rightQuote, '"')]

/-- How tokens are written, by kind and text. The brace that closes a name may be missing where
`atEnd` holds. -/
inductive Spells (atEnd : Prop) : Kind → String → List Char → Prop
  | sign {kind : Kind} {c : Char} : (kind, c) ∈ signs → Spells atEnd kind c.toString [c]
  | word (cs : List Char) : Spells atEnd .word (String.ofList cs) cs
  | string (cs : List Char) : Spells atEnd .string (String.ofList cs) cs
  | name (cs : List Char) : Spells atEnd .name (String.ofList cs) cs
  | bracedName (cs : List Char) :
    Spells atEnd .name (String.ofList cs) ('\x7b' :: (cs ++ ['\x7d']))
  | openName (cs : List Char) : atEnd → Spells atEnd .name (String.ofList cs) ('\x7b' :: cs)
  | comment (cs : List Char) : Spells atEnd .comment (String.ofList cs) ('#' :: cs)
  | lineEnd {c : Char} {blanks : List Char} : isLineEnd c = true →
    (∀ b ∈ blanks, isBlank b = true) → Spells atEnd .lineEnd "\n" (c :: blanks)
  | blank {c : Char} {blanks : List Char} :
    (∀ b ∈ c :: blanks, isBlank b = true ∧ isLineEnd b = false) →
    Spells atEnd .blank " " (c :: blanks)

theorem Spells.imp {p q : Prop} {kind : Kind} {text : String} {piece : List Char}
    (h : Spells p kind text piece) (hpq : p → q) : Spells q kind text piece := by
  cases h with
  | sign hsign => exact .sign hsign
  | word | string | name | bracedName | comment => constructor
  | openName cs hend => exact .openName cs (hpq hend)
  | lineEnd hc hblanks => exact .lineEnd hc hblanks
  | blank hblanks => exact .blank hblanks

/-- Tokens that stand side by side in a text, the first one at the given offset, and the end of the
text behind them. -/
inductive SideBySide : Nat → List Char → List Token → Prop
  | done (pos : Nat) : SideBySide pos [] [⟨.endOfText, none, pos⟩]
  | piece {pos : Nat} {kind : Kind} {value : String} {piece rest : List Char}
    {tokens : List Token} : Spells (rest = []) kind value piece →
    SideBySide (pos + piece.length) rest tokens →
    SideBySide pos (piece ++ rest) (⟨kind, some value, pos⟩ :: tokens)

/-- Tokens that account for every character of a text: their offsets lead from its beginning to its
end, the slice from one offset to the next is the piece of the token, and the slices make up the
text. -/
structure Lossless (text : List Char) (tokens : List Token) : Prop where
  first : tokens.head?.map Token.pos = some 0
  last : tokens.getLast? = some ⟨.endOfText, none, text.length⟩
  slices : tokens.IsChain fun t u => t.pos ≤ u.pos ∧ ∃ value, t.text = some value ∧
    Spells (u.pos = text.length) t.kind value (text.extract t.pos u.pos)
  joined : (tokens.zipWith (fun t u => text.extract t.pos u.pos) tokens.tail).flatten = text

namespace SideBySide

variable {pos : Nat} {cs : List Char} {tokens : List Token}

theorem exists_cons (h : SideBySide pos cs tokens) :
    ∃ t rest, tokens = t :: rest ∧ t.pos = pos := by
  cases h with
  | done => exact ⟨_, _, rfl, rfl⟩
  | piece => exact ⟨_, _, rfl, rfl⟩

theorem getLast? (h : SideBySide pos cs tokens) :
    tokens.getLast? = some ⟨.endOfText, none, pos + cs.length⟩ := by
  induction h with
  | done => rfl
  | piece _ hrest ih =>
    rw [List.getLast?_cons, ih, List.length_append, ← Nat.add_assoc]
    rfl

/-- A piece is the slice from its offset to the next one. -/
theorem extract_piece (front piece rest : List Char) :
    (front ++ (piece ++ rest)).extract front.length (front.length + piece.length) = piece := by
  simp

theorem slices (h : SideBySide pos cs tokens) (front : List Char) (hfront : front.length = pos) :
    tokens.IsChain fun t u => t.pos ≤ u.pos ∧ ∃ value, t.text = some value ∧
      Spells (u.pos = (front ++ cs).length) t.kind value ((front ++ cs).extract t.pos u.pos) := by
  induction h generalizing front with
  | done => exact .singleton _
  | @piece pos kind value piece rest tokens hspells hrest ih =>
    have hnext := ih (front ++ piece) (by rw [List.length_append, hfront])
    obtain ⟨t, after, rfl, htpos⟩ := hrest.exists_cons
    rw [List.append_assoc] at hnext
    refine .cons_cons ⟨?_, value, rfl, ?_⟩ hnext
    · exact htpos ▸ Nat.le_add_right _ _
    · dsimp only
      rw [htpos, ← hfront, extract_piece]
      refine hspells.imp fun hnil => ?_
      simp [hnil]

theorem joined (h : SideBySide pos cs tokens) (front : List Char) (hfront : front.length = pos) :
    (tokens.zipWith (fun t u => (front ++ cs).extract t.pos u.pos) tokens.tail).flatten = cs := by
  induction h generalizing front with
  | done => rfl
  | @piece pos kind value piece rest tokens hspells hrest ih =>
    have hnext := ih (front ++ piece) (by rw [List.length_append, hfront])
    obtain ⟨t, after, rfl, htpos⟩ := hrest.exists_cons
    rw [List.append_assoc] at hnext
    rw [List.tail_cons, List.zipWith_cons_cons, List.flatten_cons, htpos, ← hfront, extract_piece]
    exact congrArg (piece ++ ·) hnext

theorem lossless (h : SideBySide 0 cs tokens) : Lossless cs tokens where
  first := by
    obtain ⟨t, rest, rfl, hpos⟩ := h.exists_cons
    exact congrArg some hpos
  last := by
    rw [h.getLast?, Nat.zero_add]
  slices := h.slices [] rfl
  joined := h.joined [] rfl

end SideBySide

/-- The step cuts the piece of its token off a text. -/
def Step.Cuts {Mode : Type} (step : Step Mode) (cs : List Char) : Prop :=
  ∃ piece, cs = piece ++ step.rest ∧ Spells (step.rest = []) step.kind step.text piece

/-- A step of a scanner in front of tokens that stand side by side. -/
theorem Step.Cuts.sideBySide {Mode : Type} {s : Scanner Mode} {step : Step Mode}
    {tokens : List Token} (hcuts : step.Cuts s.rest) (hsize : s.rest.length ≤ s.size)
    (h : SideBySide (s.take step).2.pos step.rest tokens) :
    SideBySide s.pos s.rest ((s.take step).1 :: tokens) := by
  obtain ⟨piece, hpiece, hspells⟩ := hcuts
  have hpos : (s.take step).2.pos = s.pos + piece.length := by
    have hlength := congrArg List.length hpiece
    rw [List.length_append] at hlength
    simp only [Scanner.take, Scanner.pos]
    omega
  rw [hpiece]
  rw [hpos] at h
  exact .piece hspells h

section Cuts

variable {Mode : Type} {mode : Mode}

theorem cuts_sign {kind : Kind} {c : Char} (h : (kind, c) ∈ signs) (rest : List Char) :
    (⟨kind, c.toString, rest, mode⟩ : Step Mode).Cuts (c :: rest) :=
  ⟨[c], rfl, .sign h⟩

theorem cuts_string {read : List Char × List Char} {cs : List Char} (h : read.1 ++ read.2 = cs) :
    (⟨.string, String.ofList read.1, read.2, mode⟩ : Step Mode).Cuts cs :=
  ⟨read.1, h.symm, .string read.1⟩

theorem cuts_name (cs : List Char) :
    (⟨.name, String.ofList (readName cs).1, (readName cs).2, mode⟩ : Step Mode).Cuts cs := by
  rcases readName_cases cs with h | h | ⟨h, hend⟩
  · exact ⟨_, h, .name _⟩
  · refine ⟨_, ?_, .bracedName _⟩
    simpa using h
  · refine ⟨_, ?_, .openName _ hend⟩
    simpa [hend] using h

end Cuts

/-! ## Scripts -/

namespace Script

theorem Region.read_append {region : Region} {cs : List Char} (h : '\\' ∉ cs) :
    (region.read cs).1 ++ (region.read cs).2 = cs := by
  cases region with
  | braces => exact readBraced_append h
  | brackets => exact readBracketed_append 0 0 cs
  | quotes => exact readQuoted_append 0 cs

theorem Region.read_stop (region : Region) (cs : List Char) :
    ∀ c ∈ (region.read cs).2.head?, c = region.closer := by
  cases region with
  | braces => exact readBraced_stop false 0 cs
  | brackets => exact readBracketed_stop 0 0 cs
  | quotes => exact readQuoted_stop 0 cs

theorem cuts_readWord {wordStart commandStart : Bool} {c : Char} {rest : List Char}
    (h : '\\' ∉ c :: rest) : (readWord wordStart commandStart c rest).Cuts (c :: rest) := by
  rw [readWord]
  by_cases hline : isLineEnd c = true
  · rw [if_pos hline]
    refine ⟨c :: rest.takeWhile isBlank, ?_, .lineEnd hline fun b => List.mem_takeWhile_imp⟩
    simp [skipBlanks, isBlank_of_isLineEnd hline]
  rw [if_neg hline]
  by_cases hsemicolon : c = ';'
  · rw [if_pos hsemicolon, hsemicolon]
    exact cuts_sign (by decide) rest
  rw [if_neg hsemicolon]
  by_cases hblank : isBlank c = true
  · rw [if_pos hblank]
    refine ⟨c :: rest.takeWhile fun b => isBlank b && !isLineEnd b, ?_, .blank ?_⟩
    · simp [skipLineBlanks, hblank, hline]
    · refine List.forall_mem_cons.2 ⟨⟨hblank, by simpa using hline⟩, fun b hb => ?_⟩
      simpa using List.mem_takeWhile_imp hb
  rw [if_neg hblank]
  by_cases hcomment : (c = '#' && commandStart) = true
  · obtain ⟨hc, -⟩ : c = '#' ∧ commandStart = true := by simpa using hcomment
    rw [if_pos hcomment]
    refine ⟨'#' :: rest.takeWhile (!isLineEnd ·), ?_, .comment _⟩
    rw [hc, List.cons_append, List.takeWhile_append_dropWhile]
  rw [if_neg hcomment]
  by_cases hbracket : c = '['
  · rw [if_pos hbracket, hbracket]
    exact cuts_sign (by decide) rest
  rw [if_neg hbracket]
  by_cases hbrace : (c = '\x7b' && wordStart) = true
  · obtain ⟨hc, -⟩ : c = '\x7b' ∧ wordStart = true := by simpa using hbrace
    rw [if_pos hbrace, hc]
    exact cuts_sign (by decide) rest
  rw [if_neg hbrace]
  by_cases hquote : (c = '"' && wordStart) = true
  · obtain ⟨hc, -⟩ : c = '"' ∧ wordStart = true := by simpa using hquote
    rw [if_pos hquote, hc]
    exact cuts_sign (by decide) rest
  rw [if_neg hquote]
  by_cases hname : startsName (c :: rest) = true
  · rw [if_pos hname, eq_of_startsName hname]
    exact cuts_sign (by decide) rest
  rw [if_neg hname]
  exact ⟨_, (readPlain_append h).symm, .word _⟩

/-- Where the end of a region is expected, it stands. -/
def AtClosers (mode : Mode) (cs : List Char) : Prop :=
  ∀ region, mode = .closing region → ∀ c ∈ cs.head?, c = region.closer

theorem cuts_stepAt {mode : Mode} {c : Char} {rest : List Char} (hescape : '\\' ∉ c :: rest)
    (hcloser : AtClosers mode (c :: rest)) : (stepAt mode c rest).Cuts (c :: rest) := by
  cases mode with
  | words wordStart commandStart => exact cuts_readWord hescape
  | name => exact cuts_name (c :: rest)
  | inside region => exact cuts_string (Region.read_append hescape)
  | closing region =>
    rw [hcloser region rfl c rfl]
    have hsign : (region.closeKind, region.closer) ∈ signs := by cases region <;> decide
    exact cuts_sign hsign rest

theorem mode_readWord_ne (wordStart commandStart : Bool) (c : Char) (rest : List Char)
    (region : Region) : (readWord wordStart commandStart c rest).mode ≠ .closing region := by
  unfold readWord
  repeat' split
  all_goals nofun

theorem atClosers_stepAt (mode : Mode) (c : Char) (rest : List Char) :
    AtClosers (stepAt mode c rest).mode (stepAt mode c rest).rest := by
  cases mode with
  | words wordStart commandStart =>
    intro region hmode
    exact absurd hmode (mode_readWord_ne wordStart commandStart c rest region)
  | name | closing => nofun
  | inside region =>
    rintro region' hmode
    cases hmode
    exact region.read_stop (c :: rest)

/-- The tokens of a script stand side by side from where the scanner stands. -/
theorem sideBySide_tokensFrom {s : Scanner Mode} (hescape : '\\' ∉ s.rest)
    (hcloser : AtClosers s.mode s.rest) (hsize : s.rest.length ≤ s.size) :
    SideBySide s.pos s.rest (tokensFrom s) := by
  fun_induction tokensFrom s with
  | case1 s hnone =>
    obtain ⟨size, cs, mode⟩ := s
    cases cs with
    | nil => exact .done size
    | cons c rest =>
      have hc : c ≠ '\\' := (List.ne_of_not_mem_cons hescape).symm
      cases hnone.symm.trans (next?_of_cons size mode hc rest)
  | case2 s t s' hnext ih =>
    obtain ⟨hsize', hforward, -⟩ := next?_forward hnext
    obtain ⟨size, cs, mode⟩ := s
    cases cs with
    | nil => cases hnext.symm.trans (next?_of_nil rfl)
    | cons c rest =>
      have hc : c ≠ '\\' := (List.ne_of_not_mem_cons hescape).symm
      cases hnext.symm.trans (next?_of_cons size mode hc rest)
      refine (cuts_stepAt hescape hcloser).sideBySide hsize (ih ?_ ?_ ?_)
      · exact fun hmem => hescape (hforward.subset hmem)
      · exact atClosers_stepAt mode c rest
      · exact Nat.le_trans hforward.length_le (hsize'.symm ▸ hsize)

end Script

/-! ## Substitution text -/

namespace Substitution

/-- The token that starts with `c` in a mode. -/
def stepAt (mode : Mode) (c : Char) (rest : List Char) : Step Mode :=
  match mode with
  | .plain =>
    if c = '[' then ⟨.leftBracket, "[", rest, .inside⟩
    else if startsName (c :: rest) then ⟨.dollar, "$", rest, .name⟩
    else
      ⟨.string, String.ofList (readPlain (· == '[') (c :: rest)).1,
        (readPlain (· == '[') (c :: rest)).2, .plain⟩
  | .name => ⟨.name, String.ofList (readName (c :: rest)).1, (readName (c :: rest)).2, .plain⟩
  | .inside =>
    ⟨.string, String.ofList (readBracketed 0 0 (c :: rest)).1, (readBracketed 0 0 (c :: rest)).2,
      .closing⟩
  | .closing => ⟨.rightBracket, "]", rest, .plain⟩

theorem next?_of_cons (size : Nat) (mode : Mode) (c : Char) (rest : List Char) :
    next? ⟨size, c :: rest, mode⟩ =
      some (Scanner.take ⟨size, c :: rest, mode⟩ (stepAt mode c rest)) := by
  cases mode with
  | plain =>
    simp only [next?, stepAt]
    split_ifs <;> rfl
  | name | inside | closing => rfl

theorem cuts_stepAt {mode : Mode} {c : Char} {rest : List Char} (hescape : '\\' ∉ c :: rest)
    (hcloser : mode = .closing → c = ']') : (stepAt mode c rest).Cuts (c :: rest) := by
  cases mode with
  | plain =>
    unfold stepAt
    dsimp only
    split_ifs with hbracket hname
    · rw [hbracket]
      exact cuts_sign (by decide) rest
    · rw [eq_of_startsName hname]
      exact cuts_sign (by decide) rest
    · exact cuts_string (readPlain_append hescape)
  | name => exact cuts_name (c :: rest)
  | inside => exact cuts_string (readBracketed_append 0 0 (c :: rest))
  | closing =>
    rw [hcloser rfl]
    exact cuts_sign (by decide) rest

theorem closing_stepAt {mode : Mode} {c : Char} {rest : List Char}
    (h : (stepAt mode c rest).mode = .closing) :
    ∀ d ∈ (stepAt mode c rest).rest.head?, d = ']' := by
  cases mode with
  | plain =>
    unfold stepAt at h
    dsimp only at h
    split_ifs at h
  | name | closing => cases h
  | inside => exact readBracketed_stop 0 0 (c :: rest)

theorem stepAt_suffix (mode : Mode) (c : Char) (rest : List Char) :
    (stepAt mode c rest).rest <:+ c :: rest := by
  cases mode with
  | plain =>
    unfold stepAt
    dsimp only
    split_ifs
    · exact List.suffix_cons c rest
    · exact List.suffix_cons c rest
    · exact readPlain_suffix _ _
  | name => exact readName_suffix _
  | inside => exact ⟨_, readBracketed_append 0 0 (c :: rest)⟩
  | closing => exact List.suffix_cons c rest

/-- The tokens of substitution text stand side by side from where the scanner stands. -/
theorem sideBySide_tokensFrom {s : Scanner Mode} (hescape : '\\' ∉ s.rest)
    (hcloser : s.mode = .closing → ∀ c ∈ s.rest.head?, c = ']') (hsize : s.rest.length ≤ s.size) :
    SideBySide s.pos s.rest (tokensFrom s) := by
  fun_induction tokensFrom s with
  | case1 s hnone =>
    obtain ⟨size, cs, mode⟩ := s
    cases cs with
    | nil => exact .done size
    | cons c rest => cases hnone.symm.trans (next?_of_cons size mode c rest)
  | case2 s t s' hnext ih =>
    obtain ⟨size, cs, mode⟩ := s
    cases cs with
    | nil => cases hnext
    | cons c rest =>
      have hforward := stepAt_suffix mode c rest
      cases hnext.symm.trans (next?_of_cons size mode c rest)
      have hcuts := cuts_stepAt hescape fun hmode => hcloser hmode c rfl
      refine hcuts.sideBySide hsize (ih ?_ ?_ ?_)
      · exact fun hmem => hescape (hforward.subset hmem)
      · exact closing_stepAt
      · exact Nat.le_trans hforward.length_le hsize

end Substitution

/-- The tokens of a script and those of substitution text, if there is no backslash in the text,
account for every character of it. -/
theorem tokens_lossless {text : String} (h : '\\' ∉ text.toList) :
    Lossless text.toList (Script.tokens text) ∧
      Lossless text.toList (Substitution.tokens text) := by
  have hpos : ∀ {Mode : Type} (mode : Mode), (Scanner.start text.toList mode).pos = 0 :=
    fun mode => Nat.sub_self _
  constructor
  · have hscript := Script.sideBySide_tokensFrom (s := .start text.toList .initial) h nofun
      (Nat.le_refl _)
    rw [hpos] at hscript
    exact hscript.lossless
  · have hsubstitution := Substitution.sideBySide_tokensFrom (s := .start text.toList .plain) h
      nofun (Nat.le_refl _)
    rw [hpos] at hsubstitution
    exact hsubstitution.lossless

/-- A comment and a blank line behind it, a quote in mid-word, a name in braces, a lone dollar sign,
empty braces, and an index that the end of the text leaves open. -/
theorem tokens_lossless_open_index :
    let text := "# c\n \n set a\"b $\x7bx y\x7d$ \x7b\x7d $z([b"
    '\\' ∉ text.toList ∧
      (Script.tokens text).map Token.pos =
        [0, 3, 7, 10, 11, 14, 15, 16, 21, 22, 23, 24, 24, 25, 26, 27, 31] ∧
      Lossless text.toList (Script.tokens text) ∧
      Lossless text.toList (Substitution.tokens text) := by
  intro text
  have h : '\\' ∉ text.toList := by decide
  exact ⟨h, by decide +kernel, tokens_lossless h⟩

end Token

end Tickle
