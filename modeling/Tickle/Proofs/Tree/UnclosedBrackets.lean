import Tickle.Proofs.Token.Nesting
import Tickle.Proofs.Tree.SubstitutionText

/-! # Brackets that are never closed

Substitution text fails to be parsed for one reason only: it ends inside a bracketed region. Which
text closes a region is said by a grammar of its own: brackets match one another, but not inside
braces, and a backslash hides the character behind it. -/

namespace Tickle.Reader

open Tickle.Text

/-! ## Regions -/

/-- What stands between matching braces. -/
inductive Braced : List Char → Prop
  | nil : Braced []
  | char {c : Char} {cs : List Char} : c ≠ '{' → c ≠ '}' → c ≠ '\\' → Braced cs → Braced (c :: cs)
  | escaped {c : Char} {cs : List Char} : Braced cs → Braced ('\\' :: c :: cs)
  | braces {inside cs : List Char} : Braced inside → Braced cs →
    Braced ('{' :: (inside ++ '}' :: cs))

/-- What stands between matching brackets. A closing brace needs no opening one. -/
inductive Bracketed : List Char → Prop
  | nil : Bracketed []
  | char {c : Char} {cs : List Char} : c ∉ delimiters → Bracketed cs → Bracketed (c :: cs)
  | strayBrace {cs : List Char} : Bracketed cs → Bracketed ('}' :: cs)
  | escaped {c : Char} {cs : List Char} : Bracketed cs → Bracketed ('\\' :: c :: cs)
  | braces {inside cs : List Char} : Braced inside → Bracketed cs →
    Bracketed ('{' :: (inside ++ '}' :: cs))
  | brackets {inside cs : List Char} : Bracketed inside → Bracketed cs →
    Bracketed ('[' :: (inside ++ ']' :: cs))

/-- A region in front of this text is not closed by it. -/
def NeverCloses (cs : List Char) : Prop :=
  ∀ inside rest, cs = inside ++ ']' :: rest → ¬ Bracketed inside

/-- Text that closes so many brackets and braces, and a bracket around them. -/
inductive Closing : Nat → Nat → List Char → Prop
  | done {cs : List Char} : Bracketed cs → Closing 0 0 cs
  | bracket {inside rest : List Char} {opened : Nat} : Bracketed inside → Closing opened 0 rest →
    Closing (opened + 1) 0 (inside ++ ']' :: rest)
  | brace {inside rest : List Char} {opened braces : Nat} : Braced inside →
    Closing opened braces rest → Closing opened (braces + 1) (inside ++ '}' :: rest)

variable {cs inside rest : List Char} {opened braces : Nat} {c : Char}

theorem Braced.passes (h : Braced cs) (opened braces : Nat) :
    Passes opened (braces + 1) cs opened (braces + 1) := by
  induction h generalizing braces with
  | nil => exact passes_nil _ _
  | char hopen hclose hescape _ ih => exact (passes_inBraces hopen hclose hescape _ _).cons (ih _)
  | escaped _ ih => exact (passes_escaped _ _ _).append (ih _)
  | braces _ _ ihInside ih =>
    exact (passes_openBrace _ _).cons ((ihInside _).append ((passes_closeBrace _ _).cons (ih _)))

theorem Bracketed.passes (h : Bracketed cs) (opened : Nat) : Passes opened 0 cs opened 0 := by
  induction h generalizing opened with
  | nil => exact passes_nil _ _
  | char hc _ ih => exact (passes_of_not_mem hc _ _).cons (ih _)
  | strayBrace _ ih => exact (passes_strayBrace _).cons (ih _)
  | escaped _ ih => exact (passes_escaped _ _ _).append (ih _)
  | braces hinside _ ih =>
    exact (passes_openBrace _ _).cons
      ((hinside.passes _ _).append ((passes_closeBrace _ _).cons (ih _)))
  | brackets _ _ ihInside ih =>
    exact (passes_openBracket _).cons ((ihInside _).append ((passes_closeBracket _).cons (ih _)))

namespace Closing

/-- A piece in front of the text between brackets. -/
theorem append (h : Closing opened 0 cs) (front : List Char)
    (hfront : ∀ cs, Bracketed cs → Bracketed (front ++ cs)) : Closing opened 0 (front ++ cs) := by
  cases h with
  | done hcs => exact .done (hfront _ hcs)
  | bracket hinside hrest =>
    rw [← List.append_assoc]
    exact .bracket (hfront _ hinside) hrest

/-- A piece in front of the text between braces. -/
theorem append_braced (h : Closing opened (braces + 1) cs) (front : List Char)
    (hfront : ∀ cs, Braced cs → Braced (front ++ cs)) :
    Closing opened (braces + 1) (front ++ cs) := by
  cases h with
  | brace hinside hrest =>
    rw [← List.append_assoc]
    exact .brace (hfront _ hinside) hrest

theorem escaped (h : Closing opened braces cs) : Closing opened braces ('\\' :: c :: cs) := by
  cases braces with
  | zero => exact h.append ['\\', c] fun _ => .escaped
  | succ braces => exact h.append_braced ['\\', c] fun _ => .escaped

/-- Behind an opening brace there is one more to be closed. -/
theorem openBrace (h : Closing opened (braces + 1) cs) : Closing opened braces ('{' :: cs) := by
  cases h with
  | @brace inside rest _ _ hinside hrest =>
    have happend (cs : List Char) :
        '{' :: (inside ++ ['}']) ++ cs = '{' :: (inside ++ '}' :: cs) := by
      simp
    cases braces with
    | zero =>
      rw [← happend]
      exact hrest.append _ fun cs hcs => happend cs ▸ .braces hinside hcs
    | succ braces =>
      rw [← happend]
      exact hrest.append_braced _ fun cs hcs => happend cs ▸ .braces hinside hcs

/-- Behind an opening bracket there is one more to be closed. -/
theorem openBracket (h : Closing (opened + 1) 0 cs) : Closing opened 0 ('[' :: cs) := by
  cases h with
  | @bracket inside rest _ hinside hrest =>
    have happend (cs : List Char) :
        '[' :: (inside ++ [']']) ++ cs = '[' :: (inside ++ ']' :: cs) := by
      simp
    rw [← happend]
    exact hrest.append _ fun cs hcs => happend cs ▸ .brackets hinside hcs

end Closing

/-- A character that is not hidden opens or closes something, or it counts for nothing. -/
theorem Closing.cons (hescape : c ≠ '\\')
    (h : readBracketed opened braces (c :: cs ++ [']']) = (c :: cs, [']']))
    (ih : ∀ opened' braces', readBracketed opened' braces' (cs ++ [']']) = (cs, [']']) →
      Closing opened' braces' cs) : Closing opened braces (c :: cs) := by
  cases braces with
  | zero =>
    by_cases hc : c ∈ delimiters
    · have hkinds : c = '[' ∨ c = ']' ∨ c = '{' ∨ c = '}' := by
        simpa [delimiters, hescape] using hc
      rcases hkinds with rfl | rfl | rfl | rfl
      · exact (ih _ _ ((passes_openBracket opened).of_append h)).openBracket
      · cases opened with
        | zero => cases h
        | succ opened => exact .bracket .nil (ih _ _ ((passes_closeBracket opened).of_append h))
      · exact (ih _ _ ((passes_openBrace opened 0).of_append h)).openBrace
      · have hrest := ih _ _ ((passes_strayBrace opened).of_append h)
        exact hrest.append ['}'] fun _ => .strayBrace
    · have hrest := ih _ _ ((passes_of_not_mem hc opened 0).of_append h)
      exact hrest.append [c] fun _ => .char hc
  | succ braces =>
    by_cases hopen : c = '{'
    · subst hopen
      exact (ih _ _ ((passes_openBrace opened (braces + 1)).of_append h)).openBrace
    · by_cases hclose : c = '}'
      · subst hclose
        exact .brace .nil (ih _ _ ((passes_closeBrace opened braces).of_append h))
      · have hpass := passes_inBraces hopen hclose hescape opened braces
        exact (ih _ _ (hpass.of_append h)).append_braced [c] fun _ =>
          .char hopen hclose hescape

/-- What is read up to a closing bracket closes everything that was open. -/
theorem closing_of_readBracketed
    (h : readBracketed opened braces (cs ++ [']']) = (cs, [']'])) : Closing opened braces cs := by
  induction hlength : cs.length using Nat.strongRecOn generalizing cs opened braces with
  | _ n ih =>
    subst hlength
    cases cs with
    | nil =>
      rcases closes_or_passes (c := ']') (by decide) opened braces with
        ⟨-, rfl, rfl⟩ | ⟨_, _, hpass⟩
      · exact .done .nil
      · cases (hpass 0 []).symm.trans h
    | cons c rest =>
      by_cases hc : c = '\\'
      · subst hc
        cases rest with
        | nil => cases h
        | cons d rest =>
          have hlt : rest.length < ('\\' :: d :: rest).length := Nat.lt_add_of_pos_right Nat.two_pos
          exact (ih _ hlt ((passes_escaped d _ _).of_append h) rfl).escaped
      · exact .cons hc h fun _ _ hrest => ih _ (Nat.lt_succ_self _) hrest rfl

theorem bracketed_iff : Bracketed cs ↔ FitsBrackets cs := by
  constructor
  · exact fun h => (h.passes 0).fitsBrackets
  · intro h
    cases closing_of_readBracketed h with
    | done hcs => exact hcs

/-- Text that closes a region is read up to the bracket that closes it. -/
theorem Bracketed.readBracketed_eq (h : Bracketed inside) (rest : List Char) :
    readBracketed 0 0 (inside ++ ']' :: rest) = (inside, ']' :: rest) := by
  rw [h.passes 0]
  simp [readBracketed]

theorem neverCloses_iff : NeverCloses cs ↔ (readBracketed 0 0 cs).2 = [] := by
  constructor
  · intro h
    by_contra hne
    obtain ⟨c, rest, hrest⟩ := List.exists_cons_of_ne_nil hne
    obtain rfl : c = ']' := readBracketed_stop 0 0 cs c (by rw [hrest]; rfl)
    refine h _ rest ?_ (bracketed_iff.2 (fitsBrackets_of_closed hne))
    rw [← hrest, readBracketed_append]
  · rintro h inside rest rfl hinside
    rw [hinside.readBracketed_eq] at h
    cases h

/-! ## Text that leaves a bracket open -/

/-- A bracket in the text is never closed. A bracket in a region before it, in a name or behind a
backslash opens nothing. -/
inductive LeavesOpen : List Char → Prop
  | here {rest : List Char} : NeverCloses rest → LeavesOpen ('[' :: rest)
  | behindRegion {inside rest : List Char} : Bracketed inside → LeavesOpen rest →
    LeavesOpen ('[' :: (inside ++ ']' :: rest))
  | behindName {cs : List Char} : startsName ('$' :: cs) = true → LeavesOpen (readName cs).2 →
    LeavesOpen ('$' :: cs)
  | behindEscape {c : Char} {rest : List Char} : LeavesOpen rest → LeavesOpen ('\\' :: c :: rest)
  | behindChar {c : Char} {rest : List Char} : c ≠ '[' → c ≠ '\\' → startsName (c :: rest) = false →
    LeavesOpen rest → LeavesOpen (c :: rest)

theorem not_leavesOpen_nil : ¬ LeavesOpen [] := nofun

theorem leavesOpen_region (h : Bracketed inside) :
    LeavesOpen ('[' :: (inside ++ ']' :: rest)) ↔ LeavesOpen rest := by
  constructor
  · intro hopen
    generalize hcs : inside ++ ']' :: rest = cs at hopen
    cases hopen with
    | here hnever => exact absurd h (hnever inside rest hcs.symm)
    | @behindRegion inside' rest' hinside' hrest' =>
      have hread := hinside'.readBracketed_eq rest'
      rw [← hcs, h.readBracketed_eq] at hread
      cases hread
      exact hrest'
    | behindChar hc => exact absurd rfl hc
  · exact .behindRegion h

theorem leavesOpen_name (h : startsName ('$' :: cs) = true) :
    LeavesOpen ('$' :: cs) ↔ LeavesOpen (readName cs).2 := by
  constructor
  · intro hopen
    cases hopen with
    | behindName _ hrest => exact hrest
    | behindChar _ _ hname => cases h.symm.trans hname
  · exact .behindName h

theorem leavesOpen_escape : LeavesOpen ('\\' :: c :: rest) ↔ LeavesOpen rest := by
  constructor
  · intro hopen
    cases hopen with
    | behindEscape hrest => exact hrest
    | behindChar _ hc => exact absurd rfl hc
  · exact .behindEscape

theorem leavesOpen_char (hc : c ≠ '[') (hescape : c ≠ '\\')
    (hname : startsName (c :: rest) = false) : LeavesOpen (c :: rest) ↔ LeavesOpen rest := by
  constructor
  · intro hopen
    cases hopen with
    | here | behindRegion => exact absurd rfl hc
    | behindName h => cases h.symm.trans hname
    | behindEscape => exact absurd rfl hescape
    | behindChar _ _ _ hrest => exact hrest
  · exact .behindChar hc hescape hname

/-- Characters of a class that means nothing where substitutions are looked for. -/
theorem leavesOpen_append {p : Char → Bool} (hp : ['[', '\\', '$'].any p = false)
    (h : ∀ c ∈ front, p c = true) : LeavesOpen (front ++ cs) ↔ LeavesOpen cs := by
  induction front with
  | nil => rfl
  | cons c front ih =>
    obtain ⟨hc, hfront⟩ := List.forall_mem_cons.1 h
    have hne (d : Char) (hd : d ∈ ['[', '\\', '$']) : c ≠ d := by
      rintro rfl
      exact List.any_eq_false.1 hp c hd hc
    have hname : startsName (c :: (front ++ cs)) = false := by
      rw [Bool.eq_false_iff]
      exact fun hname => hne '$' (by decide) (eq_of_startsName hname)
    exact (leavesOpen_char (hne _ (by decide)) (hne _ (by decide)) hname).trans (ih hfront)

/-- Literal text opens nothing. -/
theorem leavesOpen_readPlain (cs : List Char) :
    LeavesOpen (readPlain (· == '[') cs).2 ↔ LeavesOpen cs := by
  show LeavesOpen (readPoints (· == '[') cs).2 ↔ LeavesOpen cs
  fun_induction readPoints (· == '[') cs with
  | case1 => rfl
  | case2 => rfl
  | case3 c rest _ hcontinuation ih =>
    obtain ⟨d, more, heq, hd⟩ := exists_of_atContinuation hcontinuation
    obtain ⟨rfl, rfl⟩ := List.cons.inj heq
    have hskip : skipContinuation ('\\' :: d :: more) = more.dropWhile isBlank :=
      List.dropWhile_cons_of_pos (isBlank_of_isLineEnd hd)
    have hblanks : LeavesOpen (more.takeWhile isBlank ++ more.dropWhile isBlank) ↔
        LeavesOpen (more.dropWhile isBlank) :=
      leavesOpen_append (by decide) fun c hc => List.mem_takeWhile_imp hc
    rw [List.takeWhile_append_dropWhile] at hblanks
    rw [ih, hskip, leavesOpen_escape, hblanks]
  | case4 rest _ _ ih =>
    rw [keep_snd, ih]
    cases rest with
    | nil =>
      have hescape : ¬ LeavesOpen ['\\'] := by
        intro h
        cases h with
        | behindChar _ hc => exact hc rfl
      exact iff_of_false not_leavesOpen_nil hescape
    | cons d rest =>
      obtain ⟨digits, hrest, hdigits⟩ := exists_hexDigits_readEscaped d rest
      rw [leavesOpen_escape]
      conv_rhs => rw [hrest]
      exact (leavesOpen_append (by decide) hdigits).symm
  | case5 c rest hstop _ hescape ih =>
    obtain ⟨hbracket, hname⟩ : c ≠ '[' ∧ startsName (c :: rest) = false := by
      simpa using hstop
    rw [keep_snd, ih, leavesOpen_char hbracket hescape hname]

end Tickle.Reader

/-! ## What is parsed -/

namespace Tickle.Tree

open Tickle.Reader Token.Substitution

/-- The text ends where a token of this kind should stand. -/
def endsBefore (expected : Token.Kind) : Error :=
  .parse .unexpected (some .endOfText) (some expected)

/-- The fragments of a text, which cannot be read if and only if it leaves a bracket open; then it
ends in front of a script or in front of the bracket behind it. -/
def FailsOpen (cs : List Char) : Except Error (List Node) → Prop
  | .ok _ => ¬ LeavesOpen cs
  | .error e => LeavesOpen cs ∧ (e = endsBefore .string ∨ e = endsBefore .rightBracket)

theorem FailsOpen.map {cs rest : List Char} {r : Except Error (List Node)}
    {f : List Node → List Node} (h : FailsOpen rest r) (hrest : LeavesOpen cs ↔ LeavesOpen rest) :
    FailsOpen cs (r.map f) := by
  cases r with
  | ok => exact mt hrest.1 h
  | error => exact ⟨hrest.2 h.1, h.2⟩

/-- Behind an opening bracket. -/
theorem failsOpen_script {size : Nat} {cs : List Char}
    (ih : ∀ rest : List Char, rest.length ≤ cs.length →
      FailsOpen rest (fragments (tokensIn ⟨size, rest, .plain⟩))) :
    FailsOpen ('[' :: cs) (fragments (tokensIn ⟨size, '[' :: cs, .plain⟩)) := by
  cases cs with
  | nil =>
    have hopen : stepAt .plain '[' [] = ⟨.leftBracket, "[", [], .inside⟩ := rfl
    obtain ⟨pos, hpos⟩ := exists_tokensIn_cons hopen size
    rw [hpos, tokensIn_nil, fragments]
    exact ⟨.here (neverCloses_iff.2 rfl), .inl rfl⟩
  | cons c rest =>
    obtain ⟨pos, pos', hpos⟩ := exists_tokensIn_brackets size c rest
    rw [hpos]
    by_cases hafter : (readBracketed 0 0 (c :: rest)).2 = []
    · rw [hafter, tokensIn_nil, fragments]
      exact ⟨.here (neverCloses_iff.2 hafter), .inr rfl⟩
    · have hinside := bracketed_iff.2 (fitsBrackets_of_closed hafter)
      have hle := length_readBracketed_le 0 0 (c :: rest)
      have hcs := readBracketed_append 0 0 (c :: rest)
      obtain ⟨d, after, hd⟩ := List.exists_cons_of_ne_nil hafter
      obtain rfl : d = ']' := readBracketed_stop 0 0 _ d (by rw [hd]; rfl)
      rw [hd] at hcs hle ⊢
      obtain ⟨pos'', hclose⟩ := exists_tokensIn_closing size after
      rw [hclose, fragments_brackets]
      refine (ih after (Nat.le_of_succ_le hle)).map ?_
      conv_lhs => rw [← hcs]
      exact leavesOpen_region hinside

theorem failsOpen_fragments (size : Nat) (cs : List Char) :
    FailsOpen cs (fragments (tokensIn ⟨size, cs, .plain⟩)) := by
  -- one fragment may take several tokens, so the induction is on what is left behind it
  induction hlength : cs.length using Nat.strongRecOn generalizing cs with
  | _ n ih =>
    subst hlength
    cases cs with
    | nil =>
      rw [tokensIn_nil, fragments_nil]
      exact not_leavesOpen_nil
    | cons c rest =>
      by_cases hbracket : c = '['
      · subst hbracket
        exact failsOpen_script fun after hle => ih _ (Nat.lt_succ_of_le hle) after rfl
      · cases hname : startsName (c :: rest) with
        | true =>
          obtain rfl : c = '$' := eq_of_startsName hname
          obtain ⟨_, _, htokens⟩ := exists_tokensIn_reference hname rfl size
          have hlt : (readName rest).2.length < ('$' :: rest).length :=
            Nat.lt_succ_of_le (length_readName_le rest)
          rw [htokens, fragments_reference]
          exact (ih _ hlt _ rfl).map (leavesOpen_name hname)
        | false =>
          obtain ⟨_, htokens⟩ := exists_tokensIn_literal hbracket hname rfl size
          have hlt : (readPlain (· == '[') (c :: rest)).2.length < (c :: rest).length :=
            length_readPlain_lt (by simpa using hbracket) hname
          rw [htokens, fragments_string]
          exact (ih _ hlt _ rfl).map (leavesOpen_readPlain _).symm

/-- Substitution text is parsed unless it leaves a bracket open. -/
theorem parseSubstitution_cases (text : String) :
    (∃ tree, parseSubstitution text = .ok tree) ∧ ¬ LeavesOpen text.toList ∨
      (∃ expected ∈ [Token.Kind.string, .rightBracket],
        parseSubstitution text = .error (endsBefore expected)) ∧ LeavesOpen text.toList := by
  have h : FailsOpen text.toList (fragments (tokensIn (.start text.toList .plain))) :=
    failsOpen_fragments _ _
  rw [parseSubstitution_eq]
  generalize fragments (tokensIn (.start text.toList .plain)) = r at h ⊢
  cases r with
  | ok nodes => exact .inl ⟨⟨_, rfl⟩, h⟩
  | error e =>
    obtain ⟨hopen, rfl | rfl⟩ := h
    · exact .inr ⟨⟨_, by decide, rfl⟩, hopen⟩
    · exact .inr ⟨⟨_, by decide, rfl⟩, hopen⟩

end Tickle.Tree
