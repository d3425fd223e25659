import Tickle.Proofs.Token.ReadOn
import Tickle.Proofs.Token.Suffix
import Mathlib.Data.List.Forall2

/-! # Tokens in front of another line

A script whose words hold no backslash, and whose regions and references are closed, is read to its
end and no further: what follows on the next line does not change its tokens, and is itself read as
a script of its own. -/

namespace Tickle

namespace Token

/-- The same token, but for its place in the text. -/
def Alike (t u : Token) : Prop := t.kind = u.kind ∧ t.text = u.text

/-- How many tokens have to follow one of this kind: the name behind a dollar sign, the inside of a
region and its end. -/
def Kind.needs : Kind → Nat
  | .dollar => 1
  | .leftBrace | .leftBracket | .leftQuote => 2
  | _ => 0

/-- Every token is followed by as many as it needs. -/
def Complete : List Token → Prop
  | [] => True
  | t :: rest => t.kind.needs ≤ rest.length ∧ Complete rest

/-- The same step in a text that goes on. -/
def Step.followedBy {Mode : Type} (more : List Char) (step : Step Mode) : Step Mode :=
  { step with rest := step.rest ++ more }

namespace Scanner

variable {Mode : Type}

/-- The same scanner on a text that goes on. -/
def followedBy (more : List Char) (s : Scanner Mode) : Scanner Mode :=
  ⟨s.size + more.length, s.rest ++ more, s.mode⟩

theorem pos_followedBy (more : List Char) (s : Scanner Mode) :
    (s.followedBy more).pos = s.pos := by
  simp [pos, followedBy, Nat.add_sub_add_right]

theorem take_followedBy (more : List Char) (s : Scanner Mode) (step : Step Mode) :
    (s.followedBy more).take (step.followedBy more) =
      ((s.take step).1, (s.take step).2.followedBy more) := by
  simp only [take, pos_followedBy]
  rfl

end Scanner

namespace Script

open Tickle.Text Tickle.Reader

/-! ## One token -/

/-- The token that starts with `c` in a mode. -/
def stepAt (mode : Mode) (c : Char) (rest : List Char) : Step Mode :=
  match mode with
  | .words wordStart commandStart => readWord wordStart commandStart c rest
  | .name =>
    ⟨.name, String.ofList (readName (c :: rest)).1, (readName (c :: rest)).2, .afterPart⟩
  | .inside region =>
    ⟨.string, String.ofList (region.read (c :: rest)).1, (region.read (c :: rest)).2,
      .closing region⟩
  | .closing region => ⟨region.closeKind, region.closer.toString, rest, .afterPart⟩

/-- What is left where the next token starts. -/
def upcoming (mode : Mode) (cs : List Char) : List Char :=
  match mode with
  | .words .. => skipContinuations cs
  | _ => cs

theorem next?_eq (s : Scanner Mode) : next? s =
    match upcoming s.mode s.rest with
    | [] => none
    | c :: rest => some (Scanner.take { s with rest := c :: rest } (stepAt s.mode c rest)) := by
  obtain ⟨size, cs, mode⟩ := s
  cases mode with
  | words wordStart commandStart =>
    simp only [next?, upcoming]
    cases skipContinuations cs <;> rfl
  | name | inside | closing => cases cs <;> rfl

theorem exists_of_next? {s s' : Scanner Mode} {t : Token} (h : next? s = some (t, s')) :
    ∃ c rest, upcoming s.mode s.rest = c :: rest ∧
      (t, s') = Scanner.take { s with rest := c :: rest } (stepAt s.mode c rest) := by
  rw [next?_eq] at h
  cases hrest : upcoming s.mode s.rest with
  | nil =>
    rw [hrest] at h
    cases h
  | cons c rest =>
    rw [hrest] at h
    exact ⟨c, rest, rfl, (Option.some.inj h).symm⟩

theorem kind_stepAt (mode : Mode) (c : Char) (rest : List Char) :
    (stepAt mode c rest).kind ≠ .endOfText := by
  cases mode with
  | words wordStart commandStart =>
    unfold stepAt readWord
    dsimp only
    repeat' split
    all_goals nofun
  | name | inside => nofun
  | closing region => cases region <;> nofun

/-- A token that is read is not the end of the text. -/
theorem kind_of_next? {s s' : Scanner Mode} {t : Token} (h : next? s = some (t, s')) :
    t.kind ≠ .endOfText := by
  obtain ⟨c, rest, -, htake⟩ := exists_of_next? h
  cases htake
  exact kind_stepAt _ c rest

/-- Tokens from where the scanner stands to the end of the text, which is not among them. -/
def tokensIn (s : Scanner Mode) : List Token := untilEnd (tokensFrom s)

theorem tokensIn_of_none {s : Scanner Mode} (h : next? s = none) : tokensIn s = [] := by
  rw [tokensIn, tokensFrom]
  split
  · rfl
  · rename_i h'
    cases h.symm.trans h'

theorem tokensIn_of_some {s s' : Scanner Mode} {t : Token} (h : next? s = some (t, s')) :
    tokensIn s = t :: tokensIn s' := by
  have hkind := kind_of_next? h
  rw [tokensIn, tokensFrom]
  split
  · rename_i h'
    cases h.symm.trans h'
  · rename_i h'
    cases h.symm.trans h'
    exact List.takeWhile_cons_of_pos (decide_eq_true hkind)

/-- How many tokens have to follow in a mode. -/
def Mode.needs : Mode → Nat
  | .words .. => 0
  | .name | .closing _ => 1
  | .inside _ => 2

/-- What has to follow a token is what it needs itself, or one less than was needed before it. -/
theorem needs_stepAt (mode : Mode) (c : Char) (rest : List Char) :
    (stepAt mode c rest).mode.needs = (stepAt mode c rest).kind.needs ∨
      (stepAt mode c rest).mode.needs + 1 = mode.needs := by
  cases mode with
  | words wordStart commandStart =>
    refine .inl ?_
    unfold stepAt readWord
    dsimp only
    repeat' split
    all_goals rfl
  | name | inside | closing => exact .inr rfl

theorem stepAt_suffix (mode : Mode) (c : Char) (rest : List Char) :
    (stepAt mode c rest).rest <:+ c :: rest := by
  cases mode with
  | words wordStart commandStart => exact readWord_suffix wordStart commandStart c rest
  | name => exact readName_suffix _
  | inside region => exact region.read_suffix _
  | closing region => exact List.suffix_cons c rest

theorem upcoming_suffix (mode : Mode) (cs : List Char) : upcoming mode cs <:+ cs := by
  cases mode with
  | words => exact skipContinuations_suffix cs
  | name | inside | closing => exact List.suffix_rfl

/-- A scanner goes forward in its text. -/
theorem next?_forward {s s' : Scanner Mode} {t : Token} (h : next? s = some (t, s')) :
    s'.size = s.size ∧ s'.rest <:+ s.rest ∧
      (s'.mode.needs = t.kind.needs ∨ s'.mode.needs + 1 = s.mode.needs) := by
  obtain ⟨c, rest, hrest, htake⟩ := exists_of_next? h
  have hsuffix := upcoming_suffix s.mode s.rest
  rw [hrest] at hsuffix
  cases htake
  exact ⟨rfl, (stepAt_suffix s.mode c rest).trans hsuffix, needs_stepAt s.mode c rest⟩

/-- Every reference from where the scanner stands is closed. -/
def closesNames (s : Scanner Mode) : Bool :=
  (s.mode ≠ .name || closesName s.rest) &&
    match _h : next? s with
    | none => true
    | some (_, s') => closesNames s'
termination_by s.measure Mode.weight
decreasing_by exact measure_next?_lt _h

/-- No reference in the words of a script runs on to its end for want of a closing brace or
parenthesis. -/
def closesReferences (text : String) : Bool := closesNames (.start text.toList .initial)

theorem closesNames_mode {s : Scanner Mode} (h : closesNames s = true) (hmode : s.mode = .name) :
    closesName s.rest = true := by
  rw [closesNames, Bool.and_eq_true] at h
  simpa [hmode] using h.1

theorem closesNames_next? {s s' : Scanner Mode} {t : Token} (h : closesNames s = true)
    (hnext : next? s = some (t, s')) : closesNames s' = true := by
  rw [closesNames, Bool.and_eq_true] at h
  have hrest := h.2
  split at hrest
  · rename_i hnone
    cases hnone.symm.trans hnext
  · rename_i hsome
    cases hsome.symm.trans hnext
    exact hrest

theorem next?_of_nil {s : Scanner Mode} (h : s.rest = []) : next? s = none := by
  obtain ⟨size, cs, mode⟩ := s
  subst h
  cases mode with
  | words => simp [next?, skipContinuations, atContinuation]
  | name | inside | closing => rfl

theorem next?_of_cons (size : Nat) (mode : Mode) {c : Char} (hc : c ≠ '\\') (rest : List Char) :
    next? ⟨size, c :: rest, mode⟩ =
      some (Scanner.take ⟨size, c :: rest, mode⟩ (stepAt mode c rest)) := by
  have hupcoming : upcoming mode (c :: rest) = c :: rest := by
    cases mode with
    | words => exact skipContinuations_of_ne hc rest
    | name | inside | closing => rfl
  rw [next?_eq, hupcoming]

/-! ## One token in front of another line -/

variable (more : List Char)

theorem readWord_of_isLineEnd {wordStart commandStart : Bool} {c : Char} (h : isLineEnd c = true)
    (rest : List Char) : readWord wordStart commandStart c rest =
      ⟨.lineEnd, "\n", skipBlanks (c :: rest), .initial⟩ := by
  simp [readWord, h]

/-- Blanks at the end of the text are read together with those at the beginning of the next line. -/
def EndsLine (step step' : Step Mode) : Prop :=
  step = ⟨.lineEnd, "\n", [], .initial⟩ ∧ step' = ⟨.lineEnd, "\n", skipBlanks more, .initial⟩

theorem readWord_append_newline {wordStart commandStart : Bool} {c : Char} {rest : List Char}
    (h : '\\' ∉ c :: rest) :
    readWord wordStart commandStart c (rest ++ '\n' :: more) =
        (readWord wordStart commandStart c rest).followedBy ('\n' :: more) ∨
      EndsLine more (readWord wordStart commandStart c rest)
        (readWord wordStart commandStart c (rest ++ '\n' :: more)) := by
  by_cases hline : isLineEnd c = true
  · rw [readWord_of_isLineEnd hline, readWord_of_isLineEnd hline]
    have hskip : skipBlanks (c :: (rest ++ '\n' :: more)) =
        if (skipBlanks (c :: rest)).isEmpty then skipBlanks more
        else skipBlanks (c :: rest) ++ '\n' :: more := by
      rw [skipBlanks, ← List.cons_append, List.dropWhile_append]
      simp only [List.dropWhile_cons_of_pos isBlank_newline]
      rfl
    rw [hskip]
    cases skipBlanks (c :: rest) with
    | nil => exact .inr ⟨rfl, rfl⟩
    | cons d after => exact .inl rfl
  · refine .inl ?_
    unfold readWord
    rw [startsName_append_newline]
    split_ifs with hsemicolon hblank hcomment hbracket hbrace hquote hname
    · rfl
    · have hdrop := dropWhile_append_stop more (fun c => isBlank c && !isLineEnd c) '\n'
        (by decide) (c :: rest)
      rw [skipLineBlanks, skipLineBlanks, ← List.cons_append, hdrop]
      rfl
    · have htake := takeWhile_append_stop more (!isLineEnd ·) '\n' (by decide) rest
      have hdrop := dropWhile_append_stop more (!isLineEnd ·) '\n' (by decide) rest
      rw [htake, hdrop]
      rfl
    · rfl
    · rfl
    · rfl
    · rfl
    · have hstop : endsWord '\n' = true := by decide
      have hread := readPlain_append_newline more hstop h
      rw [← List.cons_append, hread]
      rfl

theorem Region.read_append_more {region : Region} {cs : List Char} (hescape : '\\' ∉ cs)
    (h : (region.read cs).2 ≠ []) :
    region.read (cs ++ more) = Reader.followedBy more (region.read cs) := by
  cases region with
  | braces => exact readBraced_append_more more hescape h
  | brackets => exact readBracketed_append_more more hescape h
  | quotes => exact readQuoted_append_more more hescape h

/-- A token is read in front of another line as at the end of the text, unless it is the inside of a
region that the text leaves open. -/
theorem stepAt_append_newline {mode : Mode} {c : Char} {rest : List Char}
    (hescape : '\\' ∉ c :: rest) (hclosed : mode = .name → closesName (c :: rest) = true) :
    stepAt mode c (rest ++ '\n' :: more) = (stepAt mode c rest).followedBy ('\n' :: more) ∨
      EndsLine more (stepAt mode c rest) (stepAt mode c (rest ++ '\n' :: more)) ∨
      (stepAt mode c rest).rest = [] ∧ mode.needs = 2 := by
  cases mode with
  | words wordStart commandStart =>
    rcases readWord_append_newline more hescape with h | h
    · exact .inl h
    · exact .inr (.inl h)
  | name =>
    refine .inl ?_
    rw [stepAt, stepAt, ← List.cons_append, readName_append_newline more (hclosed rfl)]
    rfl
  | inside region =>
    by_cases hrest : (region.read (c :: rest)).2 = []
    · exact .inr (.inr ⟨hrest, rfl⟩)
    · refine .inl ?_
      rw [stepAt, stepAt, ← List.cons_append, region.read_append_more _ hescape hrest]
      rfl
  | closing region => exact .inl rfl

/-- One step of a scanner in front of another line: the same step, or the end of the line together
with the blanks behind it, or the inside of a region that the text leaves open. -/
theorem next?_followedBy {s s' : Scanner Mode} {t : Token} (hescape : '\\' ∉ s.rest)
    (hclosed : s.mode = .name → closesName s.rest = true) (h : next? s = some (t, s')) :
    next? (s.followedBy ('\n' :: more)) = some (t, s'.followedBy ('\n' :: more)) ∨
      (t.kind = .lineEnd ∧ s'.rest = [] ∧ next? (s.followedBy ('\n' :: more)) =
        some (t, ⟨(s'.followedBy ('\n' :: more)).size, skipBlanks more, .initial⟩)) ∨
      s'.rest = [] ∧ s.mode.needs = 2 := by
  obtain ⟨size, cs, mode⟩ := s
  cases cs with
  | nil => cases h.symm.trans (next?_of_nil rfl)
  | cons c rest =>
    have hc : c ≠ '\\' := (List.ne_of_not_mem_cons hescape).symm
    have hs : (t, s') = Scanner.take ⟨size, c :: rest, mode⟩ (stepAt mode c rest) :=
      Option.some.inj (h.symm.trans (next?_of_cons size mode hc rest))
    have hmore : next? (Scanner.followedBy ('\n' :: more) ⟨size, c :: rest, mode⟩) =
        some (Scanner.take (Scanner.followedBy ('\n' :: more) ⟨size, c :: rest, mode⟩)
          (stepAt mode c (rest ++ '\n' :: more))) := next?_of_cons _ mode hc _
    have hpos := Scanner.pos_followedBy ('\n' :: more) ⟨size, c :: rest, mode⟩
    rw [hmore]
    rcases stepAt_append_newline more hescape hclosed with heq | ⟨hstep, hstep'⟩ | ⟨hrest, hneeds⟩
    · refine .inl ?_
      rw [heq, Scanner.take_followedBy, ← hs]
    · refine .inr (.inl ?_)
      rw [hstep] at hs
      cases hs
      refine ⟨rfl, rfl, ?_⟩
      rw [hstep', Scanner.take, hpos]
      rfl
    · cases hs
      exact .inr (.inr ⟨hrest, hneeds⟩)

/-! ## All tokens in front of another line -/

/-- The end of a line, with the blanks after it. -/
theorem exists_tokensIn_lineEnd (size : Nat) (wordStart commandStart : Bool) {c : Char}
    (h : isLineEnd c = true) (rest : List Char) :
    ∃ t, t.kind = .lineEnd ∧ tokensIn ⟨size, c :: rest, .words wordStart commandStart⟩ =
      t :: tokensIn ⟨size, skipBlanks (c :: rest), .initial⟩ := by
  have hc : c ≠ '\\' := by
    rintro rfl
    cases h
  have hnext := next?_of_cons size (.words wordStart commandStart) hc rest
  rw [stepAt, readWord_of_isLineEnd h] at hnext
  exact ⟨_, rfl, tokensIn_of_some hnext⟩

/-- What comes after the tokens of a text: the end of its line, unless that is their last one, and
then the tokens of the next line. -/
def Separated (tokens next after : List Token) : Prop :=
  (∃ t, t.kind = .lineEnd ∧ after = t :: next) ∨
    (∃ t ∈ tokens.getLast?, t.kind = .lineEnd) ∧ after = next

theorem Separated.cons {tokens next after : List Token} (h : Separated tokens next after)
    (t : Token) : Separated (t :: tokens) next after := by
  rcases h with h | ⟨⟨u, hu, hkind⟩, h⟩
  · exact .inl h
  · refine .inr ⟨⟨u, ?_, hkind⟩, h⟩
    rw [List.getLast?_cons, Option.mem_def.1 hu]
    rfl

/-- The tokens of a text that is complete and closes its references are not changed by another line,
and that line is read from its first character that is not blank. -/
theorem tokensIn_followedBy {s : Scanner Mode} (hescape : '\\' ∉ s.rest)
    (hclosed : closesNames s = true) (hneeds : s.mode.needs ≤ (tokensIn s).length)
    (hcomplete : Complete (tokensIn s)) :
    ∃ after, tokensIn (s.followedBy ('\n' :: more)) = tokensIn s ++ after ∧
      Separated (tokensIn s)
        (tokensIn ⟨(s.followedBy ('\n' :: more)).size, skipBlanks more, .initial⟩) after := by
  -- along the scan, the tokens to come are as many as the mode needs
  induction s using tokensFrom.induct with
  | case1 s hnone =>
    obtain ⟨size, cs, mode⟩ := s
    rw [tokensIn_of_none hnone] at hneeds ⊢
    cases cs with
    | cons c rest =>
      have hc : c ≠ '\\' := (List.ne_of_not_mem_cons hescape).symm
      cases hnone.symm.trans (next?_of_cons size mode hc rest)
    | nil =>
      cases mode with
      | name | inside | closing => cases hneeds
      | words wordStart commandStart =>
        obtain ⟨t, hkind, htokens⟩ := exists_tokensIn_lineEnd (size + ('\n' :: more).length)
          wordStart commandStart (by decide : isLineEnd '\n' = true) more
        have hskip : skipBlanks ('\n' :: more) = skipBlanks more :=
          List.dropWhile_cons_of_pos isBlank_newline
        rw [hskip] at htokens
        exact ⟨_, htokens, .inl ⟨t, hkind, rfl⟩⟩
  | case2 s t s' hnext ih =>
    obtain ⟨hsize, hforward, hneeds'⟩ := next?_forward hnext
    rw [tokensIn_of_some hnext] at hneeds hcomplete ⊢
    obtain ⟨hkindNeeds, hcomplete⟩ := hcomplete
    rw [List.length_cons] at hneeds
    rcases next?_followedBy more hescape (closesNames_mode hclosed) hnext with
      hmore | ⟨hkind, hrest, hmore⟩ | ⟨hrest, hopen⟩
    · obtain ⟨after, htokens, hseparated⟩ := ih (fun hmem => hescape (hforward.subset hmem))
        (closesNames_next? hclosed hnext) (by omega) hcomplete
      rw [Scanner.followedBy, hsize] at hseparated
      refine ⟨after, ?_, hseparated.cons t⟩
      rw [tokensIn_of_some hmore, htokens]
      rfl
    · rw [tokensIn_of_none (next?_of_nil hrest), tokensIn_of_some hmore]
      rw [Scanner.followedBy, hsize]
      exact ⟨_, rfl, .inr ⟨⟨t, rfl, hkind⟩, rfl⟩⟩
    · -- the region that the text leaves open needs two tokens
      rw [tokensIn_of_none (next?_of_nil hrest), hopen] at hneeds
      cases Nat.le_of_succ_le_succ hneeds

/-! ## The next line on its own -/

/-- Tokens do not depend on where the text stands, their offsets apart. -/
theorem alike_tokensIn (s : Scanner Mode) (size : Nat) :
    List.Forall₂ Alike (tokensIn s) (tokensIn { s with size }) := by
  induction s using tokensFrom.induct with
  | case1 s hnone =>
    have hnone' : next? { s with size } = none := by
      rw [next?_eq] at hnone ⊢
      dsimp only
      cases hrest : upcoming s.mode s.rest with
      | nil => rfl
      | cons c rest =>
        rw [hrest] at hnone
        cases hnone
    rw [tokensIn_of_none hnone, tokensIn_of_none hnone']
    exact .nil
  | case2 s t s' hnext ih =>
    obtain ⟨c, rest, hrest, htake⟩ := exists_of_next? hnext
    have hnext' : next? { s with size } =
        some (Scanner.take ⟨size, c :: rest, s.mode⟩ (stepAt s.mode c rest)) := by
      rw [next?_eq]
      dsimp only
      rw [hrest]
    rw [tokensIn_of_some hnext, tokensIn_of_some hnext']
    cases htake
    exact .cons ⟨rfl, rfl⟩ ih

theorem readWord_of_isBlank {wordStart commandStart : Bool} {c : Char} (hblank : isBlank c = true)
    (hline : isLineEnd c = false) (rest : List Char) : readWord wordStart commandStart c rest =
      ⟨.blank, " ", skipLineBlanks (c :: rest), .words true commandStart⟩ := by
  have hsemicolon : c ≠ ';' := by
    rintro rfl
    exact absurd hblank (by decide)
  simp [readWord, hline, hsemicolon, hblank]

theorem skipLineBlanks_cons (c : Char) (rest : List Char) : skipLineBlanks (c :: rest) =
    if isBlank c && !isLineEnd c then skipLineBlanks rest else c :: rest := by
  simp only [skipLineBlanks, List.dropWhile_cons]

theorem skipBlanks_skipLineBlanks (cs : List Char) :
    skipBlanks (skipLineBlanks cs) = skipBlanks cs := by
  induction cs with
  | nil => rfl
  | cons c rest ih =>
    rw [skipLineBlanks_cons]
    split
    · rename_i h
      rw [ih]
      exact (List.dropWhile_cons_of_pos (Bool.and_eq_true_iff.1 h).1).symm
    · rfl

/-- Blanks in front of a script are separators of commands. -/
theorem exists_tokensIn_skipBlanks (size : Nat) (cs : List Char) :
    ∃ blanks : List Token, (∀ t ∈ blanks, t.kind = .blank ∨ t.kind = .lineEnd) ∧
      tokensIn ⟨size, cs, .initial⟩ = blanks ++ tokensIn ⟨size, skipBlanks cs, .initial⟩ := by
  induction hlength : cs.length using Nat.strongRecOn generalizing cs with
  | _ n ih =>
    cases cs with
    | nil => exact ⟨[], nofun, rfl⟩
    | cons c rest =>
      by_cases hblank : isBlank c = true
      · cases hline : isLineEnd c with
        | true =>
          obtain ⟨t, hkind, htokens⟩ := exists_tokensIn_lineEnd size true true hline rest
          exact ⟨[t], by simp [hkind], htokens⟩
        | false =>
          have hc : c ≠ '\\' := by
            rintro rfl
            exact absurd hblank (by decide)
          have hnext := next?_of_cons size .initial hc rest
          rw [Mode.initial, stepAt, readWord_of_isBlank hblank hline] at hnext
          have hshorter : (skipLineBlanks (c :: rest)).length < n := by
            rw [skipLineBlanks_cons, hblank, hline, ← hlength]
            exact Nat.lt_succ_of_le (length_dropWhile_le _ rest)
          obtain ⟨blanks, hkinds, htokens⟩ := ih _ hshorter _ rfl
          rw [skipBlanks_skipLineBlanks] at htokens
          have hall := (tokensIn_of_some hnext).trans (congrArg (_ :: ·) htokens)
          exact ⟨_, List.forall_mem_cons.2 ⟨.inl rfl, hkinds⟩, hall⟩
      · have hskip : skipBlanks (c :: rest) = c :: rest := List.dropWhile_cons_of_neg hblank
        rw [hskip]
        exact ⟨[], nofun, rfl⟩

end Script

end Token

end Tickle
