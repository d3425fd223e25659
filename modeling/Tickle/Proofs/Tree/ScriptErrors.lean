import Tickle.Proofs.Token.NextLine
import Tickle.Proofs.Tree.CommandGrammar
import Tickle.Proofs.Tree.UnclosedBrackets

/-! # Why scripts are not parsed

The scanner knows where in a command it stands, and so only few tokens come where the parser does
not want them: a command may begin with something else than a word, its name may go on behind the
word, and the text may end inside a region. All other errors of the parser never occur. -/

namespace Tickle

namespace Token.Script

open Tickle.Text Tickle.Reader

/-! ## Tokens in their places -/

/-- Where a token of a script stands: between commands, right behind the word that names a command,
or among the operands. -/
inductive Place where
  | between | behindName | among
  deriving DecidableEq

/-- Right behind a word only brackets open a region. -/
def Place.Opens (place : Place) (region : Region) : Prop :=
  place = .behindName → region = .brackets

/-- Tokens as they come from a place on. A name follows its dollar sign; the inside and the end of a
region follow its opening, unless the text ends. -/
inductive Arranged : Place → List Token → Prop
  | nil {place : Place} : Arranged place []
  | separator {t : Token} {rest : List Token} : t.kind = .blank ∨ t.kind = .comment →
    Arranged .between rest → Arranged .between (t :: rest)
  | stop {place : Place} {t : Token} {rest : List Token} : Tree.endsCommand t.kind = true →
    Arranged .between rest → Arranged place (t :: rest)
  | name {t : Token} {rest : List Token} : t.kind = .word → Arranged .behindName rest →
    Arranged .between (t :: rest)
  | blank {place : Place} {t : Token} {rest : List Token} : place ≠ .between → t.kind = .blank →
    Arranged .among rest → Arranged place (t :: rest)
  | word {t : Token} {rest : List Token} : t.kind = .word → Arranged .among rest →
    Arranged .among (t :: rest)
  | reference {place : Place} {t u : Token} {rest : List Token} : t.kind = .dollar →
    u.kind = .name → Arranged .among rest → Arranged place (t :: u :: rest)
  | region {place : Place} {region : Region} {t u v : Token} {rest : List Token} :
    place.Opens region → t.kind = region.openKind → u.kind = .string → v.kind = region.closeKind →
    Arranged .among rest → Arranged place (t :: u :: v :: rest)
  | unclosed {place : Place} {region : Region} {t : Token} {inside : Option Token} :
    place.Opens region → t.kind = region.openKind → (∀ u ∈ inside, u.kind = .string) →
    Arranged place (t :: inside.toList)

/-! ## The scanner keeps to the places -/

/-- A word cannot go on here. -/
def AtWordEnd : List Char → Prop
  | [] => True
  | c :: rest => endsWord c = true ∨ startsName (c :: rest) = true

theorem atWordEnd_readPlain (cs : List Char) : AtWordEnd (readPlain endsWord cs).2 := by
  show AtWordEnd (readPoints endsWord cs).2
  fun_induction readPoints endsWord cs with
  | case1 => trivial
  | case2 c rest hstop => simpa [AtWordEnd] using hstop
  | case3 | case4 | case5 =>
    rename_i ih
    exact ih

theorem skipContinuations_of_atWordEnd {cs : List Char} (h : AtWordEnd cs) :
    skipContinuations cs = cs := by
  rw [skipContinuations, if_neg]
  intro hcontinuation
  obtain ⟨c, rest, rfl, -⟩ := exists_of_atContinuation hcontinuation
  rcases h with hend | hname
  · exact absurd hend (by decide)
  · exact absurd (eq_of_startsName hname) (by decide)

/-- The kind of what is read where words are expected, what is expected behind it and what is left
of the text. -/
inductive WordStep (wordStart commandStart : Bool) (here : List Char) :
    Kind → Mode → List Char → Prop
  | stop {kind : Kind} {rest : List Char} : Tree.endsCommand kind = true →
    WordStep wordStart commandStart here kind .initial rest
  | blank {rest : List Char} :
    WordStep wordStart commandStart here .blank (.words true commandStart) rest
  | comment {rest : List Char} : commandStart = true →
    WordStep wordStart commandStart here .comment (.words wordStart commandStart) rest
  | opens {region : Region} {rest : List Char} : region = .brackets ∨ wordStart = true →
    WordStep wordStart commandStart here region.openKind (.inside region) rest
  | dollar {rest : List Char} : rest ≠ [] →
    WordStep wordStart commandStart here .dollar .name rest
  | word {rest : List Char} : ¬ AtWordEnd here → AtWordEnd rest →
    WordStep wordStart commandStart here .word .afterPart rest

theorem wordStep_readWord (wordStart commandStart : Bool) (c : Char) (rest : List Char) :
    WordStep wordStart commandStart (c :: rest) (readWord wordStart commandStart c rest).kind
      (readWord wordStart commandStart c rest).mode
      (readWord wordStart commandStart c rest).rest := by
  have hopens (region : Region) (h : region = .brackets ∨ wordStart = true) :
      WordStep wordStart commandStart (c :: rest) (openRegion region rest).kind
        (openRegion region rest).mode (openRegion region rest).rest := .opens h
  unfold readWord
  split_ifs with hline hsemicolon hblank hcomment hbracket hbrace hquote hname
  · exact .stop rfl
  · exact .stop rfl
  · exact .blank
  · exact .comment (Bool.and_eq_true_iff.1 hcomment).2
  · exact hopens .brackets (.inl rfl)
  · exact hopens .braces (.inr (Bool.and_eq_true_iff.1 hbrace).2)
  · exact hopens .quotes (.inr (Bool.and_eq_true_iff.1 hquote).2)
  · refine .dollar ?_
    rintro rfl
    rw [eq_of_startsName hname] at hname
    cases hname
  · refine .word ?_ (atWordEnd_readPlain _)
    rintro (hend | hstart)
    · simp [endsWord, hsemicolon, hblank, hbracket] at hend
    · exact hname hstart

theorem wordStep_next? {wordStart commandStart : Bool} {size : Nat} {cs : List Char} {t : Token}
    {s' : Scanner Mode} (h : next? ⟨size, cs, .words wordStart commandStart⟩ = some (t, s')) :
    WordStep wordStart commandStart (skipContinuations cs) t.kind s'.mode s'.rest := by
  obtain ⟨c, rest, hrest, htake⟩ := exists_of_next? h
  change skipContinuations cs = c :: rest at hrest
  cases htake
  rw [hrest]
  exact wordStep_readWord wordStart commandStart c rest

/-- What a scanner that expects words knows of its place. -/
def Place.Allows (wordStart commandStart : Bool) (here : List Char) : Place → Prop
  | between => wordStart = true ∧ commandStart = true
  | behindName => wordStart = false ∧ commandStart = false ∧ AtWordEnd here
  | among => commandStart = false

variable {place : Place} {s : Scanner Mode} {region : Region}

theorem Place.Allows.skip {wordStart commandStart : Bool} {cs : List Char}
    (h : place.Allows wordStart commandStart cs) :
    place.Allows wordStart commandStart (skipContinuations cs) := by
  cases place with
  | between | among => exact h
  | behindName =>
    rw [skipContinuations_of_atWordEnd h.2.2]
    exact h

/-- Behind a dollar sign. -/
theorem tokensIn_name {cs : List Char} (h : cs ≠ []) (size : Nat) :
    ∃ u after, tokensIn ⟨size, cs, .name⟩ = u :: tokensIn ⟨size, after, .afterPart⟩ ∧
      u.kind = .name ∧ Scanner.measure Mode.weight ⟨size, after, .afterPart⟩ <
        Scanner.measure Mode.weight ⟨size, cs, .name⟩ := by
  obtain ⟨c, rest, rfl⟩ := List.exists_cons_of_ne_nil h
  have hnext := next?_eq ⟨size, c :: rest, .name⟩
  exact ⟨_, _, tokensIn_of_some hnext, rfl, measure_next?_lt hnext⟩

/-- Behind the opening of a region. -/
theorem tokensIn_inside (cs : List Char) (region : Region) (size : Nat) :
    (∃ inside : Option Token, tokensIn ⟨size, cs, .inside region⟩ = inside.toList ∧
      ∀ u ∈ inside, u.kind = .string) ∨
    ∃ u v after, tokensIn ⟨size, cs, .inside region⟩ =
        u :: v :: tokensIn ⟨size, after, .afterPart⟩ ∧
      u.kind = .string ∧ v.kind = region.closeKind ∧
      Scanner.measure Mode.weight ⟨size, after, .afterPart⟩ <
        Scanner.measure Mode.weight ⟨size, cs, .inside region⟩ := by
  cases cs with
  | nil => exact .inl ⟨none, tokensIn_of_none (next?_eq _), nofun⟩
  | cons c rest =>
    have hnext := next?_eq ⟨size, c :: rest, .inside region⟩
    have htokens := tokensIn_of_some hnext
    have hlt := measure_next?_lt hnext
    change tokensIn _ = _ :: tokensIn ⟨size, (region.read (c :: rest)).2, .closing region⟩
      at htokens
    change Scanner.measure Mode.weight ⟨size, (region.read (c :: rest)).2, .closing region⟩ < _
      at hlt
    generalize (region.read (c :: rest)).2 = after at htokens hlt
    cases after with
    | nil =>
      rw [tokensIn_of_none (s := ⟨size, [], .closing region⟩) (next?_eq _)] at htokens
      exact .inl ⟨some _, htokens, fun u hu => Option.some.inj hu ▸ rfl⟩
    | cons d after =>
      have hclose := next?_eq ⟨size, d :: after, .closing region⟩
      refine .inr ⟨_, _, after, htokens.trans (congrArg _ (tokensIn_of_some hclose)), rfl, rfl, ?_⟩
      exact (measure_next?_lt hclose).trans hlt

/-- From a place on the tokens come as they should. -/
theorem arranged_tokensIn {wordStart commandStart : Bool} {size : Nat} {cs : List Char}
    (h : place.Allows wordStart commandStart cs) :
    Arranged place (tokensIn ⟨size, cs, .words wordStart commandStart⟩) := by
  -- a reference and a region take several tokens, so the induction is on what is left behind them
  induction hmeasure : Scanner.measure Mode.weight ⟨size, cs, .words wordStart commandStart⟩
    using Nat.strongRecOn generalizing place wordStart commandStart cs with
  | _ n ih =>
    subst hmeasure
    cases hnext : next? ⟨size, cs, .words wordStart commandStart⟩ with
    | none =>
      rw [tokensIn_of_none hnext]
      exact .nil
    | some next =>
      obtain ⟨⟨kind, text, pos⟩, ⟨size', rest, mode⟩⟩ := next
      obtain rfl : size' = size := (next?_forward hnext).1
      have hlt := measure_next?_lt hnext
      have hplace := h.skip
      have hstep := wordStep_next? hnext
      dsimp only at hstep
      rw [tokensIn_of_some hnext]
      cases hstep with
      | stop hend => exact .stop hend (ih _ hlt ⟨rfl, rfl⟩ rfl)
      | blank =>
        cases place with
        | between =>
          obtain ⟨rfl, rfl⟩ := hplace
          exact .separator (.inl rfl) (ih _ hlt ⟨rfl, rfl⟩ rfl)
        | behindName => exact .blank nofun rfl (ih _ hlt hplace.2.1 rfl)
        | among => exact .blank nofun rfl (ih _ hlt hplace rfl)
      | comment hstart =>
        cases place with
        | between => exact .separator (.inr rfl) (ih _ hlt hplace rfl)
        | behindName => cases hstart.symm.trans hplace.2.1
        | among => cases hstart.symm.trans hplace
      | @opens region _ hregion =>
        have hopens : place.Opens region := by
          rintro rfl
          exact hregion.resolve_right fun hstart => by cases hstart.symm.trans hplace.1
        rcases tokensIn_inside rest region size' with
          ⟨inside, htokens, hstring⟩ | ⟨u, v, after, htokens, hu, hv, hlt'⟩
        · rw [htokens]
          exact .unclosed hopens rfl hstring
        · rw [htokens]
          exact .region hopens rfl hu hv (ih _ (hlt'.trans hlt) rfl rfl)
      | dollar hne =>
        obtain ⟨u, after, htokens, hu, hlt'⟩ := tokensIn_name hne size'
        rw [htokens]
        exact .reference rfl hu (ih _ (hlt'.trans hlt) rfl rfl)
      | word hstart hend =>
        cases place with
        | between => exact .name rfl (ih _ hlt ⟨rfl, rfl, hend⟩ rfl)
        | behindName => exact absurd hplace.2.2 hstart
        | among => exact .word rfl (ih _ hlt rfl rfl)

end Token.Script

namespace Tree

open Reader (LeavesOpen)
open Token.Script

/-! ## The parser on such tokens -/

/-- Errors of the parser of scripts. -/
inductive ScriptFault : Error → Prop
  | nameExpected {found : Token.Kind} :
    found ∈ [.dollar, .leftBrace, .leftBracket, .leftQuote] →
    ScriptFault (.parse .commandNameExpected (some found) (some .word))
  | nameNotSingle {found : Token.Kind} : found ∈ [.dollar, .leftBracket] →
    ScriptFault (.parse .commandNameNotSingle (some found) (some .blank))
  | endsBefore {expected : Token.Kind} :
    expected ∈ [.string, .rightBrace, .rightBracket, .rightQuote] →
    ScriptFault (endsBefore expected)

/-- The result has a property, or there is none because of such an error. -/
def Yields {α : Type} (P : α → Prop) : Except Error α → Prop
  | .ok a => P a
  | .error e => ScriptFault e

section

variable {α β : Type} {P : α → Prop} {Q : β → Prop} {x : Except Error α}

theorem Yields.imp {P' : α → Prop} (hx : Yields P x) (h : ∀ a, P a → P' a) : Yields P' x := by
  cases x with
  | ok a => exact h a hx
  | error e => exact hx

theorem Yields.map (hx : Yields P x) (f : α → β) : Yields (fun _ => True) (x.map f) := by
  cases x with
  | ok a => trivial
  | error e => exact hx

theorem Yields.bind {f : α → Except Error β} (hx : Yields P x) (hf : ∀ a, P a → Yields Q (f a)) :
    Yields Q (x >>= f) := by
  cases x with
  | ok a => exact hf a hx
  | error e => exact hx

end

variable {place : Place} {region : Region} {t u v : Token} {rest tokens : List Token}

theorem mem_closeKind (region : Region) :
    region.closeKind ∈ [Token.Kind.string, .rightBrace, .rightBracket, .rightQuote] := by
  cases region <;> decide

/-- The text of a region that is closed. -/
theorem yields_enclosed (hu : u.kind = .string) (hv : v.kind = region.closeKind) :
    Yields (fun r => r.2.1 = rest) (enclosed region.closeKind (u :: v :: rest)) := by
  rw [enclosed_of_kind hu hv]
  rfl

/-- The text of a region that is not closed. -/
theorem yields_enclosed_unclosed {inside : Option Token} (h : ∀ u ∈ inside, u.kind = .string) :
    Yields (fun _ => False) (enclosed region.closeKind inside.toList) := by
  cases inside with
  | none => exact .endsBefore (by decide)
  | some u =>
    change Yields _ (expect .string [u] >>= _)
    rw [expect_of_kind (h u rfl)]
    exact .endsBefore (mem_closeKind region)

theorem yields_fragments (text : String) :
    Yields (fun _ => True) (fragments (Token.untilEnd (Token.Substitution.tokens text))) := by
  have h : FailsOpen text.toList
      (fragments (Token.untilEnd (Token.Substitution.tokens text))) := failsOpen_fragments _ _
  generalize fragments _ = r at h ⊢
  cases r with
  | ok => trivial
  | error e =>
    obtain ⟨-, rfl | rfl⟩ := h
    · exact .endsBefore (by decide)
    · exact .endsBefore (by decide)

/-- What holds behind the end of a region holds behind the fragment. -/
theorem yields_fragment_region {P : List Token → Prop} (ht : t.kind = region.openKind)
    (h : Yields (fun r => P r.2.1) (enclosed region.closeKind rest)) :
    Yields (fun r => P r.2.1) (fragment t rest) := by
  unfold fragment
  cases region with
  | braces | brackets =>
    rw [ht]
    exact h.bind fun _ hr => hr
  | quotes =>
    rw [ht]
    exact h.bind fun r hr => (yields_fragments r.1).bind fun _ _ => hr

/-- Operands are read from these tokens up to the end of the command. -/
def ReadsOn (tokens : List Token) : Prop :=
  ∀ current, Yields (fun r => Arranged .between r.2.1) (operands current tokens)

/-- A fragment and the operands behind it. -/
theorem readsOn_fragment (hend : endsCommand t.kind = false) (hblank : t.kind ≠ .blank)
    (h : Yields (fun r => ReadsOn r.2.1) (fragment t rest)) : ReadsOn (t :: rest) := by
  intro current
  rw [operands, hend, if_neg hblank]
  exact h.bind fun r hr => (hr _).bind fun _ hr' => hr'

/-- A region and the operands behind it. -/
theorem readsOn_region (ht : t.kind = region.openKind)
    (h : Yields (fun r => ReadsOn r.2.1) (enclosed region.closeKind rest)) :
    ReadsOn (t :: rest) := by
  refine readsOn_fragment ?_ ?_ (yields_fragment_region ht h)
  · rw [ht]
    cases region <;> rfl
  · rw [ht]
    cases region <;> decide

theorem readsOn_of_arranged (h : Arranged place tokens) (hplace : place ≠ .between) :
    ReadsOn tokens := by
  induction h with
  | nil =>
    intro current
    rw [operands]
    exact .nil
  | separator | name => exact absurd rfl hplace
  | stop hend hrest =>
    intro current
    rw [operands, if_pos hend]
    exact .stop hend hrest
  | blank _ ht _ ih =>
    intro current
    rw [operands, ht]
    exact (ih (by decide) []).bind fun _ hr => hr
  | word ht _ ih =>
    refine readsOn_fragment (by rw [ht]; rfl) (by rw [ht]; decide) ?_
    rw [fragment, ht]
    exact ih (by decide)
  | @reference _ t u rest ht hu _ ih =>
    refine readsOn_fragment (by rw [ht]; rfl) (by rw [ht]; decide) ?_
    rw [fragment, ht]
    change Yields _ (expect .name (u :: rest) >>= _)
    rw [expect_of_kind hu]
    exact ih (by decide)
  | region _ ht hu hv _ ih =>
    refine readsOn_region ht ((yields_enclosed hu hv).imp fun _ hrest => ?_)
    rw [hrest]
    exact ih (by decide)
  | unclosed _ ht hinside =>
    exact readsOn_region ht ((yields_enclosed_unclosed hinside).imp fun _ hfalse => hfalse.elim)

/-- What follows the word that names a command. -/
theorem kindAt_behindName (h : Arranged .behindName tokens) :
    endsCommandName (Token.kindAt tokens) = true ∨
      Token.kindAt tokens ∈ [Token.Kind.dollar, .leftBracket] := by
  cases h with
  | nil => exact .inl rfl
  | stop hend => exact .inl (endsCommandName_of_endsCommand hend)
  | blank _ ht =>
    rw [Token.kindAt, ht]
    exact .inl rfl
  | reference ht =>
    rw [Token.kindAt, ht]
    exact .inr (by decide)
  | region hopens ht | unclosed hopens ht =>
    rw [Token.kindAt, ht, hopens rfl]
    exact .inr (by decide)

/-- A command cannot begin with a region or a reference. -/
theorem yields_commands_of_kind
    (h : t.kind ∈ [Token.Kind.dollar, .leftBrace, .leftBracket, .leftQuote]) :
    Yields (fun _ => True) (commands (t :: rest)) := by
  have hkinds : separatesCommands t.kind = false ∧ t.kind ≠ .word := by
    generalize t.kind = kind at h ⊢
    revert kind
    decide
  rw [commands, hkinds.1, if_pos hkinds.2]
  exact .nameExpected h

theorem mem_openKind (region : Region) :
    region.openKind ∈ [Token.Kind.dollar, .leftBrace, .leftBracket, .leftQuote] := by
  cases region <;> decide

theorem separatesCommands_of_endsCommand {kind : Token.Kind} (h : endsCommand kind = true) :
    separatesCommands kind = true := by
  have hkind : kind = .lineEnd ∨ kind = .semicolon := by simpa [endsCommand] using h
  rcases hkind with rfl | rfl <;> rfl

theorem yields_commands (h : Arranged .between tokens) :
    Yields (fun _ => True) (commands tokens) := by
  -- the next command begins behind the operands, so the induction is on the tokens left there
  induction hlength : tokens.length using Nat.strongRecOn generalizing tokens with
  | _ n ih =>
    subst hlength
    cases h with
    | nil =>
      rw [commands]
      trivial
    | @separator t _ ht hrest =>
      have hseparates : separatesCommands t.kind = true := by
        rcases ht with ht | ht <;> rw [ht] <;> rfl
      rw [commands, if_pos hseparates]
      exact ih _ (Nat.lt_succ_self _) hrest rfl
    | stop hend hrest =>
      rw [commands, if_pos (separatesCommands_of_endsCommand hend)]
      exact ih _ (Nat.lt_succ_self _) hrest rfl
    | @name t rest ht hrest =>
      have hword : ¬ t.kind ≠ .word := fun hne => hne ht
      have hseparates : separatesCommands t.kind = false := by rw [ht]; rfl
      rw [commands, hseparates, if_neg hword]
      cases hname : endsCommandName (Token.kindAt rest) with
      | false => exact .nameNotSingle ((kindAt_behindName hrest).resolve_left (by simp [hname]))
      | true =>
        refine (readsOn_of_arranged hrest (by decide) []).bind fun r hr => ?_
        exact (ih _ (Nat.lt_succ_of_le r.2.2) hr rfl).bind fun _ _ => trivial
    | blank hne => exact absurd rfl hne
    | reference ht => exact yields_commands_of_kind (by rw [ht]; decide)
    | region _ ht | unclosed _ ht => exact yields_commands_of_kind (ht ▸ mem_openKind _)

/-- A script is parsed, or it begins a command with something else than a word, goes on behind the
word that names one, or ends where the inside or the end of a region should stand. Substitution text
is parsed unless it leaves a bracket open; it then ends in front of a script or of the bracket
behind it. -/
theorem parse_faults (name text : String) :
    ((∃ program, parseScript name text = .ok program) ∨
      ∃ e, parseScript name text = .error e ∧ ScriptFault e) ∧
    ((∃ e, parseSubstitution text = .error e) ↔ LeavesOpen text.toList) ∧
    ((∃ tree, parseSubstitution text = .ok tree) ∨
      ∃ expected ∈ [Token.Kind.string, .rightBracket],
        parseSubstitution text = .error (endsBefore expected)) := by
  have hscript : Yields (fun _ => True) (parseScript name text) :=
    (yields_commands (arranged_tokensIn ⟨rfl, rfl⟩)).map _
  refine ⟨?_, ?_⟩
  · cases hparse : parseScript name text with
    | ok program => exact .inl ⟨program, rfl⟩
    | error e =>
      rw [hparse] at hscript
      exact .inr ⟨e, rfl, hscript⟩
  · rcases parseSubstitution_cases text with ⟨⟨tree, htree⟩, hclosed⟩ | ⟨⟨kind, hkind, he⟩, hopen⟩
    · refine ⟨iff_of_false ?_ hclosed, .inl ⟨tree, htree⟩⟩
      rintro ⟨e, he⟩
      cases htree.symm.trans he
    · exact ⟨iff_of_true ⟨_, he⟩ hopen, .inr ⟨kind, hkind, he⟩⟩

/-- All of these errors occur. -/
theorem exists_of_scriptFault {e : Error} (h : ScriptFault e) :
    ∃ text, parseScript "" text = .error e := by
  cases h with
  | nameExpected hfound =>
    simp only [List.mem_cons, List.not_mem_nil, or_false] at hfound
    rcases hfound with rfl | rfl | rfl | rfl
    · exact ⟨"$x", by decide +kernel⟩
    · exact ⟨"\x7b", by decide +kernel⟩
    · exact ⟨"[", by decide +kernel⟩
    · exact ⟨"\"", by decide +kernel⟩
  | nameNotSingle hfound =>
    simp only [List.mem_cons, List.not_mem_nil, or_false] at hfound
    rcases hfound with rfl | rfl
    · exact ⟨"a$x", by decide +kernel⟩
    · exact ⟨"a[", by decide +kernel⟩
  | endsBefore hexpected =>
    simp only [List.mem_cons, List.not_mem_nil, or_false] at hexpected
    rcases hexpected with rfl | rfl | rfl | rfl
    · exact ⟨"a [", by decide +kernel⟩
    · exact ⟨"a \x7bb", by decide +kernel⟩
    · exact ⟨"a [b", by decide +kernel⟩
    · exact ⟨"a \"b", by decide +kernel⟩

end Tree

end Tickle
