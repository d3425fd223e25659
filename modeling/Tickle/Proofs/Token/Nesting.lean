import Tickle.Proofs.Token.Pieces

/-! # Text between brackets

The reader of a bracketed region counts brackets and braces and skips what a backslash hides; words,
quotes and comments mean nothing to it. It passes over a piece of text with known counts before and
after the piece, and a text can stand between brackets if the reader passes over all of it with both
counts back at zero. -/

namespace Tickle.Reader

open Tickle.Text

/-- Characters that mean something to the reader of a bracketed region. -/
def delimiters : List Char := ['[', ']', '{', '}', '\\']

/-- None of the characters is a delimiter. -/
def Undelimited (cs : List Char) : Prop := ∀ c ∈ cs, c ∉ delimiters

instance : DecidablePred Undelimited := List.decidableBAll _

/-- The text can stand between brackets: it is read up to the bracket behind it. -/
def FitsBrackets (cs : List Char) : Prop := readBracketed 0 0 (cs ++ [']']) = (cs, [']'])

instance : DecidablePred FitsBrackets := fun _ => inferInstanceAs (Decidable (_ = _))

/-- The reader of a bracketed region goes over a piece of text, which takes its counts of brackets
and braces from `opened` and `braces` to `opened'` and `braces'`. -/
def Passes (opened braces : Nat) (piece : List Char) (opened' braces' : Nat) : Prop :=
  ∀ rest, readBracketed opened braces (piece ++ rest) =
    (piece ++ (readBracketed opened' braces' rest).1, (readBracketed opened' braces' rest).2)

variable {opened braces opened' braces' : Nat} {c : Char} {cs piece rest : List Char}

theorem passes_nil (opened braces : Nat) : Passes opened braces [] opened braces := fun _ => rfl

theorem Passes.append {opened'' braces'' : Nat} (h : Passes opened braces cs opened' braces')
    (h' : Passes opened' braces' piece opened'' braces'') :
    Passes opened braces (cs ++ piece) opened'' braces'' := by
  intro rest
  rw [List.append_assoc, h, h']
  simp only [List.append_assoc]

theorem Passes.cons {opened'' braces'' : Nat} (h : Passes opened braces [c] opened' braces')
    (h' : Passes opened' braces' piece opened'' braces'') :
    Passes opened braces (c :: piece) opened'' braces'' :=
  h.append h'

/-- Behind a piece that was passed over, reading goes on with the counts after it. -/
theorem Passes.of_append {after : List Char} (h : Passes opened braces piece opened' braces')
    (hread : readBracketed opened braces (piece ++ rest) = (piece ++ cs, after)) :
    readBracketed opened' braces' rest = (cs, after) := by
  rw [h] at hread
  obtain ⟨hcs, hafter⟩ := Prod.mk.inj hread
  exact Prod.ext (List.append_cancel_left hcs) hafter

/-! ## Single characters -/

theorem passes_of_keep (h : ∀ rest, readBracketed opened braces (c :: rest) =
    keep c (readBracketed opened' braces' rest)) : Passes opened braces [c] opened' braces' := h

theorem passes_escaped (c : Char) (opened braces : Nat) :
    Passes opened braces ['\\', c] opened braces :=
  fun _ => rfl

theorem passes_openBrace (opened braces : Nat) : Passes opened braces ['{'] opened (braces + 1) :=
  passes_of_keep fun rest => by simp [readBracketed]

theorem passes_closeBrace (opened braces : Nat) : Passes opened (braces + 1) ['}'] opened braces :=
  passes_of_keep fun rest => by simp [readBracketed]

theorem passes_openBracket (opened : Nat) : Passes opened 0 ['['] (opened + 1) 0 :=
  passes_of_keep fun rest => by simp [readBracketed]

theorem passes_closeBracket (opened : Nat) : Passes (opened + 1) 0 [']'] opened 0 :=
  passes_of_keep fun rest => by simp [readBracketed]

/-- Inside braces, only braces and backslashes count. -/
theorem passes_inBraces (hopen : c ≠ '{') (hclose : c ≠ '}') (hescape : c ≠ '\\')
    (opened braces : Nat) : Passes opened (braces + 1) [c] opened (braces + 1) :=
  passes_of_keep fun rest => by simp [readBracketed, hopen, hclose, hescape]

/-- A closing brace that no brace opened does not count. -/
theorem passes_strayBrace (opened : Nat) : Passes opened 0 ['}'] opened 0 :=
  passes_of_keep fun rest => by simp [readBracketed]

theorem passes_of_not_mem (h : c ∉ delimiters) (opened braces : Nat) :
    Passes opened braces [c] opened braces := by
  obtain ⟨hopen, hclose, hbrace, hbrace', hescape⟩ :
      c ≠ '[' ∧ c ≠ ']' ∧ c ≠ '{' ∧ c ≠ '}' ∧ c ≠ '\\' := by
    simpa [delimiters] using h
  exact passes_of_keep fun rest => by
    simp [readBracketed, hopen, hclose, hbrace, hbrace', hescape]

/-- What a character does to the counts does not depend on how many brackets are open around the
region, unless the character closes the region. -/
theorem closes_or_passes (hescape : c ≠ '\\') (opened braces : Nat) :
    (c = ']' ∧ opened = 0 ∧ braces = 0) ∨
      ∃ opened' braces', ∀ outer, Passes (opened + outer) braces [c] (opened' + outer) braces' := by
  by_cases hc : c ∈ delimiters
  · have hkinds : c = '[' ∨ c = ']' ∨ c = '{' ∨ c = '}' := by
      simpa [delimiters, hescape] using hc
    cases braces with
    | zero =>
      rcases hkinds with rfl | rfl | rfl | rfl
      · refine .inr ⟨opened + 1, 0, fun outer => ?_⟩
        rw [Nat.add_right_comm]
        exact passes_openBracket _
      · cases opened with
        | zero => exact .inl ⟨rfl, rfl, rfl⟩
        | succ opened =>
          refine .inr ⟨opened, 0, fun outer => ?_⟩
          rw [Nat.add_right_comm]
          exact passes_closeBracket _
      · exact .inr ⟨opened, 1, fun outer => passes_openBrace _ 0⟩
      · exact .inr ⟨opened, 0, fun outer => passes_strayBrace _⟩
    | succ braces =>
      refine .inr ?_
      rcases hkinds with rfl | rfl | rfl | rfl
      · exact ⟨opened, _, fun outer =>
          passes_inBraces (by decide) (by decide) (by decide) _ braces⟩
      · exact ⟨opened, _, fun outer =>
          passes_inBraces (by decide) (by decide) (by decide) _ braces⟩
      · exact ⟨opened, _, fun outer => passes_openBrace _ (braces + 1)⟩
      · exact ⟨opened, _, fun outer => passes_closeBrace _ braces⟩
  · exact .inr ⟨opened, braces, fun outer => passes_of_not_mem hc _ _⟩

/-- Characters that mean nothing to the reader. -/
theorem passes_of_plain (h : Undelimited cs) (opened braces : Nat) :
    Passes opened braces cs opened braces := by
  induction cs with
  | nil => exact passes_nil opened braces
  | cons c cs ih =>
    obtain ⟨hc, hcs⟩ := List.forall_mem_cons.1 h
    exact (passes_of_not_mem hc opened braces).cons (ih hcs)

/-- Characters of a class to which no delimiter belongs. -/
theorem not_mem_delimiters {p : Char → Bool} (hp : delimiters.any p = false)
    (hc : p c = true) : c ∉ delimiters := by
  intro hmem
  exact List.any_eq_false.1 hp c hmem hc

theorem not_mem_of_isBlank (h : isBlank c = true) : c ∉ delimiters :=
  not_mem_delimiters (by decide) h

/-! ## Regions -/

/-- What is read up to a closing bracket is passed over in any number of brackets around it. -/
theorem passes_of_readBracketed {more : List Char} (outer : Nat)
    (h : readBracketed opened braces (cs ++ ']' :: more) = (cs, ']' :: more)) :
    Passes (opened + outer) braces cs outer 0 := by
  induction hlength : cs.length using Nat.strongRecOn generalizing cs opened braces with
  | _ n ih =>
    subst hlength
    cases cs with
    | nil =>
      rcases closes_or_passes (c := ']') (by decide) opened braces with
        ⟨-, rfl, rfl⟩ | ⟨_, _, hpass⟩
      · rw [Nat.zero_add]
        exact passes_nil outer 0
      · cases (hpass 0 more).symm.trans h
    | cons c rest =>
      by_cases hc : c = '\\'
      · subst hc
        cases rest with
        | nil => cases h
        | cons d rest =>
          have hrest : readBracketed opened braces (rest ++ ']' :: more) = (rest, ']' :: more) :=
            (passes_escaped d opened braces).of_append h
          have hlt : rest.length < ('\\' :: d :: rest).length := Nat.lt_add_of_pos_right Nat.two_pos
          exact (passes_escaped d _ _).append (ih _ hlt hrest rfl)
      · rcases closes_or_passes hc opened braces with ⟨rfl, rfl, rfl⟩ | ⟨opened', braces', hpass⟩
        · cases h
        · have hrest : readBracketed opened' braces' (rest ++ ']' :: more) = (rest, ']' :: more) :=
            (hpass 0).of_append h
          exact (hpass outer).cons (ih _ (Nat.lt_succ_self _) hrest rfl)

theorem FitsBrackets.passes (h : FitsBrackets cs) (outer : Nat) : Passes outer 0 cs outer 0 := by
  have hpass := passes_of_readBracketed outer h
  rwa [Nat.zero_add] at hpass

theorem Passes.fitsBrackets (h : Passes 0 0 cs 0 0) : FitsBrackets cs := by
  rw [FitsBrackets, h [']']]
  simp [readBracketed]

/-- A region that is closed. -/
theorem fitsBrackets_of_closed (h : (readBracketed 0 0 cs).2 ≠ []) :
    FitsBrackets (readBracketed 0 0 cs).1 := by
  obtain ⟨c, more, hmore⟩ := List.exists_cons_of_ne_nil h
  have hc : c = ']' := readBracketed_stop 0 0 cs c (by rw [hmore]; rfl)
  subst hc
  have hcs := readBracketed_append 0 0 cs
  rw [hmore] at hcs
  have hread : readBracketed 0 0 ((readBracketed 0 0 cs).1 ++ ']' :: more) =
      ((readBracketed 0 0 cs).1, ']' :: more) := by
    rw [hcs, ← hmore]
  exact (passes_of_readBracketed 0 hread).fitsBrackets

/-- The inside of braces, up to the brace that closes them. -/
theorem exists_passes_of_readBraced {eliding : Bool} (opened' : Nat)
    (h : (readBraced eliding opened cs).2 ≠ []) :
    ∃ piece, cs = piece ++ (readBraced eliding opened cs).2 ∧
      Passes opened' (opened + 1) piece opened' 1 := by
  fun_induction readBraced eliding opened cs with
  | case1 => exact absurd rfl h
  | case2 _ _ c rest _ ih | case3 _ _ c rest _ ih =>
    obtain ⟨piece, hpiece, hpass⟩ := ih h
    exact ⟨'\\' :: c :: piece, congrArg (['\\', c] ++ ·) hpiece,
      (passes_escaped c _ _).append hpass⟩
  | case4 _ opened c rest _ hblank ih =>
    have hc := not_mem_of_isBlank (Bool.and_eq_true_iff.1 hblank).2
    obtain ⟨piece, hpiece, hpass⟩ := ih h
    exact ⟨c :: piece, congrArg (c :: ·) hpiece, (passes_of_not_mem hc _ _).cons hpass⟩
  | case5 _ opened rest _ _ ih =>
    obtain ⟨piece, hpiece, hpass⟩ := ih h
    exact ⟨'{' :: piece, congrArg ('{' :: ·) hpiece, (passes_openBrace _ _).cons hpass⟩
  | case6 => exact ⟨[], rfl, passes_nil _ _⟩
  | case7 _ opened rest hopened _ _ _ ih =>
    obtain ⟨piece, hpiece, hpass⟩ := ih h
    rw [Nat.sub_add_cancel (Nat.pos_of_ne_zero hopened)] at hpass
    exact ⟨'}' :: piece, congrArg ('}' :: ·) hpiece, (passes_closeBrace _ _).cons hpass⟩
  | case8 _ opened c rest hpair _ hopen hclose ih =>
    have hescape : c ≠ '\\' := by
      rintro rfl
      cases rest with
      | nil => exact absurd rfl h
      | cons d rest => exact hpair d rest rfl rfl
    obtain ⟨piece, hpiece, hpass⟩ := ih h
    exact ⟨c :: piece, congrArg (c :: ·) hpiece,
      (passes_inBraces hopen hclose hescape _ _).cons hpass⟩

/-! ## Words -/

/-- A backslash and the blanks behind the end of its line. -/
theorem exists_passes_of_atContinuation (h : atContinuation cs = true) (opened braces : Nat) :
    ∃ piece, cs = piece ++ skipContinuation cs ∧ Passes opened braces piece opened braces := by
  obtain ⟨c, rest, rfl, hc⟩ := exists_of_atContinuation h
  have hskip : skipContinuation ('\\' :: c :: rest) = rest.dropWhile isBlank :=
    List.dropWhile_cons_of_pos (isBlank_of_isLineEnd hc)
  refine ⟨'\\' :: c :: rest.takeWhile isBlank, ?_, ?_⟩
  · rw [hskip, List.cons_append, List.cons_append, List.takeWhile_append_dropWhile]
  · have hblanks : Undelimited (rest.takeWhile isBlank) := fun d hd =>
      not_mem_of_isBlank (List.mem_takeWhile_imp hd)
    exact (passes_escaped c _ _).append (passes_of_plain hblanks _ _)

theorem exists_passes_skipContinuations (cs : List Char) (opened braces : Nat) :
    ∃ piece, cs = piece ++ skipContinuations cs ∧ Passes opened braces piece opened braces := by
  fun_induction skipContinuations cs with
  | case1 cs h ih =>
    obtain ⟨piece, hpiece, hpass⟩ := exists_passes_of_atContinuation h opened braces
    obtain ⟨piece', hpiece', hpass'⟩ := ih
    refine ⟨piece ++ piece', ?_, hpass.append hpass'⟩
    rw [List.append_assoc, ← hpiece', ← hpiece]
  | case2 => exact ⟨[], rfl, passes_nil _ _⟩

theorem takeDigits_append (p : Char → Bool) (limit : Nat) (cs : List Char) :
    takeDigits p limit cs ++ cs.drop (takeDigits p limit cs).length = cs :=
  List.prefix_iff_eq_append.1 ((List.takeWhile_prefix p).trans (List.take_prefix limit cs))

theorem isHexDigit_of_isOctalDigit (h : isOctalDigit c = true) : isHexDigit c = true := by
  simp only [isOctalDigit, Bool.and_eq_true, decide_eq_true_eq] at h
  have hdigit : c.isDigit = true := by
    simp only [Char.isDigit, Bool.and_eq_true, decide_eq_true_eq]
    exact ⟨h.1, Char.le_trans h.2 (by decide)⟩
  simp [isHexDigit, hdigit]

/-- Behind a backslash, one character and perhaps digits are read. -/
theorem exists_hexDigits_readEscaped (c : Char) (rest : List Char) :
    ∃ digits, rest = digits ++ (readEscaped (c :: rest)).2 ∧ ∀ d ∈ digits, isHexDigit d = true := by
  have hnone : ∃ digits, rest = digits ++ rest ∧ ∀ d ∈ digits, isHexDigit d = true :=
    ⟨[], rfl, nofun⟩
  have htake (p : Char → Bool) (hp : ∀ d, p d = true → isHexDigit d = true) (limit : Nat) :
      ∃ digits, rest = digits ++ rest.drop (takeDigits p limit rest).length ∧
        ∀ d ∈ digits, isHexDigit d = true :=
    ⟨_, (takeDigits_append p limit rest).symm, fun d hd => hp d (List.mem_takeWhile_imp hd)⟩
  unfold readEscaped
  dsimp only
  split
  · exact hnone
  · split_ifs with hc hx hnil hu hnil'
    · have hdigits :
          takeDigits isOctalDigit 3 (c :: rest) = c :: takeDigits isOctalDigit 2 rest := by
        simp [takeDigits, hc]
      rw [hdigits, List.length_cons, List.drop_succ_cons]
      exact htake isOctalDigit (fun _ => isHexDigit_of_isOctalDigit) 2
    · exact hnone
    · exact ⟨_, List.takeWhile_append_dropWhile.symm, fun d hd => List.mem_takeWhile_imp hd⟩
    · exact hnone
    · exact htake isHexDigit (fun _ => id) 4
    · exact hnone

theorem exists_readEscaped_cons (c : Char) (rest : List Char) :
    ∃ digits, rest = digits ++ (readEscaped (c :: rest)).2 ∧ Undelimited digits := by
  obtain ⟨digits, hrest, hdigits⟩ := exists_hexDigits_readEscaped c rest
  exact ⟨digits, hrest, fun d hd => not_mem_delimiters (by decide) (hdigits d hd)⟩

/-- Plain text in which no delimiter is read. -/
theorem exists_passes_of_readPlain {stop : Char → Bool}
    (h : Undelimited (readPlain stop cs).1) (opened braces : Nat) :
    ∃ piece, cs = piece ++ (readPlain stop cs).2 ∧ Passes opened braces piece opened braces := by
  unfold readPlain at h ⊢
  fun_induction readPoints stop cs with
  | case1 => exact ⟨[], rfl, passes_nil _ _⟩
  | case2 => exact ⟨[], rfl, passes_nil _ _⟩
  | case3 c rest _ hcontinuation ih =>
    obtain ⟨piece, hpiece, hpass⟩ := exists_passes_of_atContinuation hcontinuation opened braces
    obtain ⟨piece', hpiece', hpass'⟩ := ih h
    refine ⟨piece ++ piece', ?_, hpass.append hpass'⟩
    rw [List.append_assoc, ← hpiece', ← hpiece]
  | case4 rest _ _ ih =>
    obtain ⟨hc, h⟩ := List.forall_mem_cons.1 h
    cases rest with
    | nil => exact absurd (by decide) hc
    | cons d rest =>
      obtain ⟨digits, hdigits, hplain⟩ := exists_readEscaped_cons d rest
      obtain ⟨piece, hpiece, hpass⟩ := ih h
      refine ⟨'\\' :: d :: (digits ++ piece), ?_, ?_⟩
      · rw [keep_snd, List.cons_append, List.cons_append, List.append_assoc, ← hpiece]
        exact congrArg (['\\', d] ++ ·) hdigits
      · exact (passes_escaped d _ _).append ((passes_of_plain hplain _ _).append hpass)
  | case5 c rest _ _ _ ih =>
    obtain ⟨hc, h⟩ := List.forall_mem_cons.1 h
    obtain ⟨piece, hpiece, hpass⟩ := ih h
    exact ⟨c :: piece, congrArg (c :: ·) hpiece, (passes_of_not_mem hc _ _).cons hpass⟩

/-- A name in which no delimiter is read, and whose brace is closed if it has one. -/
theorem exists_passes_of_readName (h : Undelimited (readName cs).1)
    (hclosed : cs ≠ '{' :: (readName cs).1) (opened braces : Nat) :
    ∃ piece, cs = piece ++ (readName cs).2 ∧ Passes opened braces piece opened braces := by
  have hname := passes_of_plain h
  rcases readName_cases cs with hcs | hcs | ⟨hcs, -⟩
  · exact ⟨_, hcs, hname _ _⟩
  · refine ⟨'{' :: ((readName cs).1 ++ ['}']), ?_, ?_⟩
    · rw [List.cons_append, List.append_assoc]
      exact hcs
    · exact (passes_openBrace _ _).cons ((hname _ _).append (passes_closeBrace _ _))
  · exact absurd hcs hclosed

end Tickle.Reader
