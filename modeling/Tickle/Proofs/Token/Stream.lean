import Mathlib.Data.Nat.Find
import Mathlib.Order.Monotone.Basic
import Tickle.Proofs.Token.LongLiterals
import Tickle.Proofs.Tree.SubstitutionText
import Tickle.Token.Relay

/-! # The tokens of a text as a stream

A scanner can be asked for a token as often as one likes: each call returns the next token and, once
the text is used up, its end again and again. In each of the three grammars the end comes after at
most two calls for every character, for a token that is empty is followed by one that is not.
Offsets never go back, and a region is closed by nothing but its closing character: where the text
lacks it, the end of the text follows. Only a literal in an expression whose decimal text is too
long has no token. -/

namespace Tickle.Token

open Script (Region)

/-- Tokens that are returned call by call from a text: they come to its end, which is then returned
for ever; their offsets never decrease; a region is closed where its closing character stands; and
what is opened is closed behind one token at most, unless the text ends before. -/
structure Orderly (text : List Char) (token : Nat → Token) : Prop where
  ends : ∃ n ≤ 2 * text.length, (∀ m < n, (token m).kind ≠ .endOfText) ∧
    ∀ m ≥ n, token m = ⟨.endOfText, none, text.length⟩
  monotone : Monotone fun n => (token n).pos
  closed : ∀ n (region : Region), (token n).kind = region.closeKind →
    text[(token n).pos]? = some region.closer
  opened : ∀ n (region : Region), (token n).kind = region.openKind →
    (token (n + 1)).kind = .endOfText ∨ (token (n + 1)).kind = .string ∧
      ((token (n + 2)).kind = .endOfText ∨ (token (n + 2)).kind = region.closeKind)

/-! ## What is due -/

/-- What has to come next: a name behind its dollar sign, the inside of a region, or the end of
that region. -/
inductive Due where
  | anything
  | name
  | inside (region : Region)
  | closing (region : Region)

/-- Tokens that close a region. -/
def Kind.closesRegion : Kind → Bool
  | rightBrace | rightBracket | rightQuote => true
  | _ => false

theorem Script.Region.closesRegion_closeKind (region : Region) :
    region.closeKind.closesRegion = true := by
  cases region <;> rfl

namespace Due

/-- The tokens that may come, if the text does not end. -/
def Admits (due : Due) (kind : Kind) : Prop :=
  kind ≠ .endOfText ∧
    match due with
    | anything => kind.closesRegion = false
    | name => kind = .name
    | inside _ => kind = .string
    | closing region => kind = region.closeKind

/-- What is due behind a token. -/
def behind (kind : Kind) : Due → Due
  | anything =>
    match kind with
    | .dollar => name
    | .leftBrace => inside .braces
    | .leftBracket => inside .brackets
    | .leftQuote => inside .quotes
    | _ => anything
  | inside region => closing region
  | name | closing _ => anything

variable {due : Due} {kind : Kind} {region : Region}

/-- A region is closed only where its end is due. -/
theorem eq_closing_of_admits (h : due.Admits region.closeKind) : due = .closing region := by
  obtain ⟨-, hkind⟩ := h
  cases due with
  | anything => cases hkind.symm.trans region.closesRegion_closeKind
  | name | inside => cases region <;> cases hkind
  | closing region' => cases region <;> cases region' <;> first | rfl | cases hkind

/-- Behind a token that opens a region its inside is due. -/
theorem behind_openKind (h : due.Admits region.openKind) :
    due.behind region.openKind = .inside region := by
  obtain ⟨-, hkind⟩ := h
  cases due with
  | anything => cases region <;> rfl
  | name | inside => cases region <;> cases hkind
  | closing region' => cases region <;> cases region' <;> cases hkind

/-- The end of a region is due behind its inside only. -/
theorem eq_inside_of_behind (h : due.behind kind = .closing region) : due = .inside region := by
  cases due with
  | anything =>
    simp only [behind] at h
    split at h <;> cases h
  | inside =>
    cases h
    rfl
  | name | closing => cases h

end Due

/-! ## The three grammars -/

namespace Script

def Mode.due : Mode → Due
  | words .. => .anything
  | name => .name
  | inside region => .inside region
  | closing region => .closing region

theorem due_stepAt (mode : Mode) (c : Char) (rest : List Char) :
    mode.due.Admits (stepAt mode c rest).kind ∧
      (stepAt mode c rest).mode.due = mode.due.behind (stepAt mode c rest).kind := by
  cases mode with
  | words wordStart commandStart =>
    unfold stepAt readWord
    dsimp only
    repeat' split
    all_goals exact ⟨⟨nofun, rfl⟩, rfl⟩
  | name | inside => exact ⟨⟨nofun, rfl⟩, rfl⟩
  | closing region => exact ⟨⟨by cases region <;> nofun, rfl⟩, rfl⟩

/-- Where the end of a region is due behind a step, it stands or the text ends. -/
theorem head?_stepAt {mode : Mode} {c : Char} {rest : List Char} {region : Script.Region}
    (hdue : (stepAt mode c rest).mode.due = .closing region) :
    ∀ d ∈ (stepAt mode c rest).rest.head?, d = region.closer := by
  have hinside : mode.due = .inside region :=
    Due.eq_inside_of_behind ((due_stepAt mode c rest).2.symm.trans hdue)
  cases mode with
  | words | name | closing => cases hinside
  | inside region =>
    cases hinside
    exact Region.read_stop _ (c :: rest)

end Script

namespace Substitution

def Mode.due : Mode → Due
  | plain => .anything
  | name => .name
  | inside => .inside .brackets
  | closing => .closing .brackets

theorem due_stepAt (mode : Mode) (c : Char) (rest : List Char) :
    mode.due.Admits (stepAt mode c rest).kind ∧
      (stepAt mode c rest).mode.due = mode.due.behind (stepAt mode c rest).kind := by
  cases mode with
  | plain =>
    unfold stepAt
    dsimp only
    split_ifs
    all_goals exact ⟨⟨nofun, rfl⟩, rfl⟩
  | name | inside | closing => exact ⟨⟨nofun, rfl⟩, rfl⟩

/-- Where the end of a region is due behind a step, it stands or the text ends. -/
theorem head?_stepAt {mode : Mode} {c : Char} {rest : List Char} {region : Script.Region}
    (hdue : (stepAt mode c rest).mode.due = .closing region) :
    ∀ d ∈ (stepAt mode c rest).rest.head?, d = region.closer := by
  have hinside : mode.due = .inside region :=
    Due.eq_inside_of_behind ((due_stepAt mode c rest).2.symm.trans hdue)
  cases mode with
  | plain | name | closing => cases hinside
  | inside =>
    cases hinside
    exact Reader.readBracketed_stop 0 0 (c :: rest)

end Substitution

namespace Expression

open Tickle.Reader

/-- Literals have the delimiters of regions of scripts. -/
def Region.delimiters : Region → Script.Region
  | quotes => .quotes
  | braces => .braces

def Mode.due : Mode → Due
  | plain => .anything
  | inside region => .inside region.delimiters
  | closing region => .closing region.delimiters

/-- The token that starts with `c` in a mode. -/
def stepAt (mode : Mode) (c : Char) (rest : List Char) : Except Error (Step Mode) :=
  match mode with
  | .plain => readToken c rest
  | .inside region =>
    .ok ⟨.string, String.ofList (region.read (c :: rest)).1, (region.read (c :: rest)).2,
      .closing region⟩
  | .closing region => .ok ⟨region.closeKind, region.closer.toString, rest, .plain⟩

/-- What is left where the next token starts. -/
def upcoming (mode : Mode) (cs : List Char) : List Char :=
  match mode with
  | .plain => skipBlanks cs
  | _ => cs

theorem next?_eq (s : Scanner Mode) : next? s =
    match upcoming s.mode s.rest with
    | [] => .ok none
    | c :: rest =>
      (stepAt s.mode c rest).map fun step =>
        some (Scanner.take { s with rest := c :: rest } step) := by
  obtain ⟨size, cs, mode⟩ := s
  cases mode with
  | plain =>
    simp only [next?, upcoming]
    cases skipBlanks cs <;> rfl
  | inside | closing => cases cs <;> rfl

/-- Tokens behind which anything may come, where anything may come. -/
def IsFree (kind : Kind) : Prop :=
  Due.anything.Admits kind ∧ Due.anything = Due.anything.behind kind

theorem isFree_of_pairKind? {c d : Char} {kind : Kind} (h : pairKind? c d = some kind) :
    IsFree kind := by
  unfold pairKind? at h
  split at h <;> cases h <;> exact ⟨⟨nofun, rfl⟩, rfl⟩

theorem isFree_of_charKind? {c : Char} {kind : Kind} (h : charKind? c = some kind) :
    IsFree kind := by
  unfold charKind? at h
  split at h <;> cases h <;> exact ⟨⟨nofun, rfl⟩, rfl⟩

theorem isFree_of_operator? {c : Char} {cs text rest : List Char} {kind : Kind}
    (h : operator? c cs = some (kind, text, rest)) : IsFree kind := by
  unfold operator? at h
  split at h
  · rename_i hpair
    cases h
    obtain ⟨d, -, hd⟩ := Option.bind_eq_some_iff.1 hpair
    exact isFree_of_pairKind? hd
  · obtain ⟨_, hchar, hkind⟩ := Option.map_eq_some_iff.1 h
    cases hkind
    exact isFree_of_charKind? hchar

theorem isFree_wordKind (word : String) : IsFree (wordKind word) := by
  unfold wordKind
  repeat' split
  all_goals exact ⟨⟨nofun, rfl⟩, rfl⟩

theorem due_readToken {c : Char} {rest : List Char} {step : Step Mode}
    (h : readToken c rest = .ok step) :
    Due.anything.Admits step.kind ∧ step.mode.due = Due.anything.behind step.kind := by
  unfold readToken at h
  split at h
  · dsimp only at h
    split at h <;> cases h
    exact ⟨⟨nofun, rfl⟩, rfl⟩
  · split at h
    · cases h
      exact ⟨⟨nofun, rfl⟩, rfl⟩
    · split at h
      · cases h
        exact ⟨⟨nofun, rfl⟩, rfl⟩
      · split at h
        · cases h
          exact isFree_wordKind _
        · split at h
          · rename_i hoperator
            cases h
            exact isFree_of_operator? hoperator
          · cases h
            exact ⟨⟨nofun, rfl⟩, rfl⟩

theorem due_stepAt {mode : Mode} {c : Char} {rest : List Char} {step : Step Mode}
    (h : stepAt mode c rest = .ok step) :
    mode.due.Admits step.kind ∧ step.mode.due = mode.due.behind step.kind := by
  cases mode with
  | plain => exact due_readToken h
  | inside region =>
    cases h
    exact ⟨⟨nofun, rfl⟩, rfl⟩
  | closing region =>
    cases h
    cases region <;> exact ⟨⟨nofun, rfl⟩, rfl⟩

theorem stepAt_suffix {mode : Mode} {c : Char} {rest : List Char} {step : Step Mode}
    (h : stepAt mode c rest = .ok step) : step.rest <:+ c :: rest := by
  cases mode with
  | plain => exact readToken_suffix h
  | inside region =>
    cases h
    exact region.read_suffix _
  | closing region =>
    cases h
    exact List.suffix_cons c rest

theorem Region.closer_delimiters (region : Region) : region.delimiters.closer = region.closer := by
  cases region <;> rfl

theorem Region.read_stop (region : Region) (cs : List Char) :
    ∀ c ∈ (region.read cs).2.head?, c = region.closer := by
  cases region with
  | quotes =>
    intro c hc
    have hstop := Text.eq_false_of_mem_head?_dropWhile c hc
    exact not_not.1 (of_decide_eq_false hstop)
  | braces => exact readBraced_stop false 0 cs

/-- Where the end of a region is due behind a step, it stands or the text ends. -/
theorem head?_stepAt {mode : Mode} {c : Char} {rest : List Char} {step : Step Mode}
    (h : stepAt mode c rest = .ok step) {region : Script.Region}
    (hdue : step.mode.due = .closing region) : ∀ d ∈ step.rest.head?, d = region.closer := by
  have hinside : mode.due = .inside region :=
    Due.eq_inside_of_behind ((due_stepAt h).2.symm.trans hdue)
  cases mode with
  | plain | closing => cases hinside
  | inside region =>
    cases h
    cases hinside
    rw [region.closer_delimiters]
    exact region.read_stop (c :: rest)

end Expression

/-! ## One call -/

/-- The grammars of tokens. -/
inductive Grammar where
  | script
  | substitution
  | expression

namespace Grammar

/-- What scanners may expect. -/
abbrev Mode : Grammar → Type
  | script => Script.Mode
  | substitution => Substitution.Mode
  | expression => Expression.Mode

def initial : (g : Grammar) → g.Mode
  | script => .initial
  | substitution => .plain
  | expression => .plain

def next? : (g : Grammar) → Scanner g.Mode → Except Error (Option (Token × Scanner g.Mode))
  | script => fun s => .ok (Script.next? s)
  | substitution => fun s => .ok (Substitution.next? s)
  | expression => Expression.next?

def due : (g : Grammar) → g.Mode → Due
  | script => Script.Mode.due
  | substitution => Substitution.Mode.due
  | expression => Expression.Mode.due

/-- What is left where the next token starts. -/
def upcoming : (g : Grammar) → g.Mode → List Char → List Char
  | script => Script.upcoming
  | substitution => fun _ cs => cs
  | expression => Expression.upcoming

/-- The token that starts with a character in a mode. -/
def stepAt : (g : Grammar) → g.Mode → Char → List Char → Except Error (Step g.Mode)
  | script => fun mode c rest => .ok (Script.stepAt mode c rest)
  | substitution => fun mode c rest => .ok (Substitution.stepAt mode c rest)
  | expression => Expression.stepAt

variable {g : Grammar}

theorem next?_eq (s : Scanner g.Mode) : g.next? s =
    match g.upcoming s.mode s.rest with
    | [] => .ok none
    | c :: rest =>
      (g.stepAt s.mode c rest).map fun step =>
        some (Scanner.take { s with rest := c :: rest } step) := by
  cases g with
  | script =>
    simp only [next?, Script.next?_eq, upcoming]
    cases Script.upcoming s.mode s.rest <;> rfl
  | substitution =>
    obtain ⟨size, cs, mode⟩ := s
    cases cs with
    | nil => rfl
    | cons c rest => exact congrArg Except.ok (Substitution.next?_of_cons size mode c rest)
  | expression => exact Expression.next?_eq s

theorem exists_of_next? {s s' : Scanner g.Mode} {t : Token}
    (h : g.next? s = .ok (some (t, s'))) :
    ∃ c rest step, g.upcoming s.mode s.rest = c :: rest ∧ g.stepAt s.mode c rest = .ok step ∧
      (t, s') = Scanner.take { s with rest := c :: rest } step := by
  rw [next?_eq] at h
  cases hrest : g.upcoming s.mode s.rest with
  | nil =>
    rw [hrest] at h
    cases h
  | cons c rest =>
    rw [hrest] at h
    dsimp only at h
    cases hstep : g.stepAt s.mode c rest with
    | error e =>
      rw [hstep] at h
      cases h
    | ok step =>
      rw [hstep] at h
      exact ⟨c, rest, step, rfl, hstep, (Option.some.inj (Except.ok.inj h)).symm⟩

theorem upcoming_suffix (mode : g.Mode) (cs : List Char) : g.upcoming mode cs <:+ cs := by
  cases g with
  | script => exact Script.upcoming_suffix mode cs
  | substitution => exact List.suffix_rfl
  | expression =>
    cases mode with
    | plain => exact List.dropWhile_suffix _
    | inside | closing => exact List.suffix_rfl

/-- Nothing is skipped in front of the end of a region. -/
theorem upcoming_of_closing {mode : g.Mode} {region : Script.Region}
    (h : g.due mode = .closing region) (cs : List Char) : g.upcoming mode cs = cs := by
  cases g with
  | script =>
    cases mode with
    | words => cases h
    | name | inside | closing => rfl
  | substitution => rfl
  | expression =>
    cases mode with
    | plain => cases h
    | inside | closing => rfl

section Step

variable {mode : g.Mode} {c : Char} {rest : List Char} {step : Token.Step g.Mode}

theorem stepAt_suffix (h : g.stepAt mode c rest = .ok step) : step.rest <:+ c :: rest := by
  cases g with
  | script =>
    cases h
    exact Script.stepAt_suffix mode c rest
  | substitution =>
    cases h
    exact Substitution.stepAt_suffix mode c rest
  | expression => exact Expression.stepAt_suffix h

theorem due_stepAt (h : g.stepAt mode c rest = .ok step) :
    (g.due mode).Admits step.kind ∧ g.due step.mode = (g.due mode).behind step.kind := by
  cases g with
  | script =>
    cases h
    exact Script.due_stepAt mode c rest
  | substitution =>
    cases h
    exact Substitution.due_stepAt mode c rest
  | expression => exact Expression.due_stepAt h

theorem head?_stepAt (h : g.stepAt mode c rest = .ok step) {region : Script.Region}
    (hdue : g.due step.mode = .closing region) : ∀ d ∈ step.rest.head?, d = region.closer := by
  cases g with
  | script =>
    cases h
    exact Script.head?_stepAt hdue
  | substitution =>
    cases h
    exact Substitution.head?_stepAt hdue
  | expression => exact Expression.head?_stepAt h hdue

end Step

/-- A name and the inside of a region may be empty. -/
def weight : (g : Grammar) → g.Mode → Nat
  | script => Script.Mode.weight
  | substitution => Substitution.Mode.weight
  | expression => Expression.Mode.weight

theorem measure_next?_lt {s s' : Scanner g.Mode} {t : Token}
    (h : g.next? s = .ok (some (t, s'))) : s'.measure g.weight < s.measure g.weight := by
  cases g with
  | script => exact Script.measure_next?_lt (Except.ok.inj h)
  | substitution => exact Substitution.measure_next?_lt (Except.ok.inj h)
  | expression => exact Expression.measure_next?_lt h

theorem measure_start (g : Grammar) (text : List Char) :
    (Scanner.start text g.initial).measure g.weight = 2 * text.length := by
  cases g <;> rfl

/-- A scanner on its way through a text. -/
structure Along (g : Grammar) (text : List Char) (s : Scanner g.Mode) : Prop where
  size : s.size = text.length
  rest : s.rest <:+ text
  closer : ∀ region, g.due s.mode = .closing region → ∀ c ∈ s.rest.head?, c = region.closer

/-- What holds of a token that was read and of the scanner behind it. -/
structure Reads (g : Grammar) (text : List Char) (s : Scanner g.Mode) (t : Token)
    (s' : Scanner g.Mode) : Prop where
  along : g.Along text s'
  admits : (g.due s.mode).Admits t.kind
  due : g.due s'.mode = (g.due s.mode).behind t.kind
  pos_le : s.pos ≤ t.pos
  le_pos : t.pos ≤ s'.pos
  closed : ∀ region : Region, t.kind = region.closeKind → text[t.pos]? = some region.closer

theorem along_start (g : Grammar) (text : List Char) : g.Along text (.start text g.initial) where
  size := rfl
  rest := List.suffix_rfl
  closer := by cases g <;> nofun

theorem Along.reads {text : List Char} {s s' : Scanner g.Mode} {t : Token} (h : g.Along text s)
    (hnext : g.next? s = .ok (some (t, s'))) : g.Reads text s t s' := by
  obtain ⟨c, rest, step, hrest, hstep, htake⟩ := exists_of_next? hnext
  obtain ⟨hadmits, hdue⟩ := due_stepAt hstep
  have hsuffix := upcoming_suffix s.mode s.rest
  have hforward := stepAt_suffix hstep
  rw [hrest] at hsuffix
  cases htake
  refine ⟨⟨h.size, (hforward.trans hsuffix).trans h.rest, fun _ => head?_stepAt hstep⟩, hadmits,
    hdue, Nat.sub_le_sub_left hsuffix.length_le _, Nat.sub_le_sub_left hforward.length_le _, ?_⟩
  rintro region hkind
  -- the end of the region was due, so it stands where the scanner does
  have hclosing : g.due s.mode = .closing region := Due.eq_closing_of_admits (hkind ▸ hadmits)
  rw [upcoming_of_closing hclosing] at hrest
  obtain ⟨front, hfront⟩ := h.rest
  have hc : c = region.closer := h.closer region hclosing c (by rw [hrest]; rfl)
  have hpos : s.size - (c :: rest).length = front.length := by
    rw [h.size, ← hfront, hrest, List.length_append, Nat.add_sub_cancel]
  change text[s.size - (c :: rest).length]? = _
  rw [hpos, ← hfront, hrest, hc]
  simp

/-! ## All calls -/

/-- One call of a scanner: the next token or, once the text is used up, its end. -/
def call (g : Grammar) (s : Scanner g.Mode) : Except Error (Token × Scanner g.Mode) :=
  (g.next? s).map fun read => read.getD (s.endToken, s)

/-- The scanner after some calls. -/
def scannerAfter (g : Grammar) (text : String) : Nat → Except Error (Scanner g.Mode)
  | 0 => .ok (.start text.toList g.initial)
  | n + 1 => do return (← g.call (← g.scannerAfter text n)).2

/-- What is returned by a call that comes after `n` others. -/
def tokenAfter (g : Grammar) (text : String) (n : Nat) : Except Error Token := do
  return (← g.call (← g.scannerAfter text n)).1

/-- A call reads a token, or the text is used up and nothing changes. -/
theorem call_cases {s s' : Scanner g.Mode} {t : Token} (h : g.call s = .ok (t, s')) :
    g.next? s = .ok (some (t, s')) ∨ t = s.endToken ∧ s' = s ∧ g.next? s = .ok none := by
  unfold call at h
  cases hnext : g.next? s with
  | error e =>
    rw [hnext] at h
    cases h
  | ok read =>
    rw [hnext] at h
    cases read with
    | none =>
      cases h
      exact .inr ⟨rfl, rfl, rfl⟩
    | some next =>
      cases h
      exact .inl rfl

/-- Scanners that call after call was made of the one before, with the tokens returned. -/
structure Calls (g : Grammar) (text : List Char) (s : Nat → Scanner g.Mode) (token : Nat → Token) :
    Prop where
  start : s 0 = .start text g.initial
  call : ∀ n, g.call (s n) = .ok (token n, s (n + 1))

section Calls

variable {text : List Char} {s : Nat → Scanner g.Mode} {token : Nat → Token}

theorem Calls.along (h : g.Calls text s token) (n : Nat) : g.Along text (s n) := by
  induction n with
  | zero => exact h.start ▸ g.along_start text
  | succ n ih =>
    rcases call_cases (h.call n) with hread | ⟨-, hsame, -⟩
    · exact (ih.reads hread).along
    · exact hsame ▸ ih

/-- What a call returns: a token that was read, or the end of the text, which changes nothing. -/
theorem Calls.reads (h : g.Calls text s token) (n : Nat) :
    g.Reads text (s n) (token n) (s (n + 1)) ∨
      token n = ⟨.endOfText, none, text.length⟩ ∧ s (n + 1) = s n := by
  rcases call_cases (h.call n) with hread | ⟨htoken, hsame, -⟩
  · exact .inl ((h.along n).reads hread)
  · refine .inr ⟨?_, hsame⟩
    rw [htoken, Scanner.endToken, (h.along n).size]

/-- Once the end was returned nothing changes any more. -/
theorem Calls.eq_of_end (h : g.Calls text s token) {n : Nat} (hend : (token n).kind = .endOfText) :
    token n = ⟨.endOfText, none, text.length⟩ ∧ s (n + 1) = s n := by
  rcases h.reads n with hread | hend'
  · exact absurd hend hread.admits.1
  · exact hend'

theorem Calls.end_of_ge (h : g.Calls text s token) {n m : Nat} (hend : (token n).kind = .endOfText)
    (hle : n ≤ m) : token m = ⟨.endOfText, none, text.length⟩ := by
  have hstays : s m = s n ∧ token m = token n := by
    induction m, hle using Nat.le_induction with
    | base => exact ⟨rfl, rfl⟩
    | succ m _ ih =>
      obtain ⟨hs, htoken⟩ := ih
      have hsame : s (m + 1) = s n := (h.eq_of_end (htoken ▸ hend)).2.trans hs
      have hcall := h.call (m + 1)
      rw [hsame, h.call n] at hcall
      exact ⟨hsame, congrArg Prod.fst (Except.ok.inj hcall).symm⟩
  rw [hstays.2]
  exact (h.eq_of_end hend).1

/-- As long as the end is not returned every call brings the scanner nearer to it. -/
theorem Calls.measure_le (h : g.Calls text s token) {n : Nat}
    (hbefore : ∀ m < n, (token m).kind ≠ .endOfText) :
    (s n).measure g.weight + n ≤ 2 * text.length := by
  induction n with
  | zero => rw [h.start, Nat.add_zero, g.measure_start]
  | succ n ih =>
    have hle := ih fun m hm => hbefore m (Nat.lt_succ_of_lt hm)
    rcases call_cases (h.call n) with hread | ⟨htoken, -, -⟩
    · have hlt := measure_next?_lt hread
      omega
    · exact absurd (congrArg Token.kind htoken) (hbefore n (Nat.lt_succ_self n))

theorem Calls.exists_end (h : g.Calls text s token) :
    ∃ n ≤ 2 * text.length, (token n).kind = .endOfText := by
  by_contra hnone
  push Not at hnone
  have hle := h.measure_le (n := 2 * text.length + 1) fun m hm => hnone m (Nat.le_of_lt_succ hm)
  omega

theorem Calls.pos_le (h : g.Calls text s token) (n : Nat) :
    (token n).pos ≤ (token (n + 1)).pos := by
  rcases h.reads n with hread | ⟨htoken, -⟩
  · rcases h.reads (n + 1) with hread' | ⟨htoken', -⟩
    · exact hread.le_pos.trans hread'.pos_le
    · rw [htoken']
      exact hread.le_pos.trans ((Nat.sub_le ..).trans hread.along.size.le)
  · have hend : (token n).kind = .endOfText := by rw [htoken]
    rw [htoken, h.end_of_ge hend (Nat.le_succ n)]

/-- Behind a token that opens a region comes its inside, and behind that its end. -/
theorem Calls.opened (h : g.Calls text s token) {n : Nat} {region : Region}
    (hkind : (token n).kind = region.openKind) :
    (token (n + 1)).kind = .endOfText ∨ (token (n + 1)).kind = .string ∧
      ((token (n + 2)).kind = .endOfText ∨ (token (n + 2)).kind = region.closeKind) := by
  rcases h.reads n with hread | ⟨htoken, -⟩
  · have hinside : g.due (s (n + 1)).mode = .inside region :=
      hread.due.trans (hkind ▸ Due.behind_openKind (hkind ▸ hread.admits))
    rcases h.reads (n + 1) with hread' | ⟨htoken', -⟩
    · have hclosing : g.due (s (n + 2)).mode = .closing region := by
        rw [hread'.due, hinside]
        rfl
      have hstring := hread'.admits
      rw [hinside] at hstring
      refine .inr ⟨hstring.2, ?_⟩
      rcases h.reads (n + 2) with hread'' | ⟨htoken'', -⟩
      · have hclose := hread''.admits
        rw [hclosing] at hclose
        exact .inr hclose.2
      · exact .inl (congrArg Token.kind htoken'')
    · exact .inl (congrArg Token.kind htoken')
  · rw [htoken] at hkind
    cases region <;> cases hkind

theorem Calls.orderly (h : g.Calls text s token) : Orderly text token where
  ends := by
    obtain ⟨n, hle, hend⟩ := h.exists_end
    have hex : ∃ n, (token n).kind = .endOfText := ⟨n, hend⟩
    classical
    exact ⟨Nat.find hex, (Nat.find_min' hex hend).trans hle, fun m hm => Nat.find_min hex hm,
      fun m hm => h.end_of_ge (Nat.find_spec hex) hm⟩
  monotone := monotone_nat_of_le_succ h.pos_le
  closed := by
    intro n region hkind
    rcases h.reads n with hread | ⟨htoken, -⟩
    · exact hread.closed region hkind
    · rw [htoken] at hkind
      cases region <;> cases hkind
  opened := fun n region hkind => h.opened hkind

end Calls

/-- If no scanner that is reached fails, every call returns a token. -/
theorem exists_calls {text : String}
    (h : ∀ s, Relation.ReflTransGen (Takes g.next?) (.start text.toList g.initial) s →
      ∃ read, g.next? s = .ok read) :
    ∃ s token, g.Calls text.toList s token ∧ ∀ n, g.tokenAfter text n = .ok (token n) := by
  let Reached (s : Scanner g.Mode) : Prop :=
    Relation.ReflTransGen (Takes g.next?) (.start text.toList g.initial) s
  have hcall (s) (hs : Reached s) : ∃ next, g.call s = .ok next ∧ Reached next.2 := by
    obtain ⟨read, hread⟩ := h s hs
    refine ⟨read.getD (s.endToken, s), by rw [call, hread]; rfl, ?_⟩
    cases read with
    | none => exact hs
    | some next => exact hs.tail ⟨next.1, hread⟩
  choose next hnext hreach using hcall
  let along : Nat → { s // Reached s } :=
    Nat.rec ⟨_, .refl⟩ fun _ s => ⟨(next s.1 s.2).2, hreach s.1 s.2⟩
  have hafter (n) : g.scannerAfter text n = .ok (along n).1 := by
    induction n with
    | zero => rfl
    | succ n ih =>
      rw [scannerAfter, ih]
      change (do return (← g.call (along n).1).2) = _
      rw [hnext]
      rfl
  refine ⟨fun n => (along n).1, fun n => (next (along n).1 (along n).2).1,
    ⟨rfl, fun n => hnext _ _⟩, fun n => ?_⟩
  rw [tokenAfter, hafter]
  change (do return (← g.call (along n).1).1) = _
  rw [hnext]
  rfl

/-- However often a scanner is called, it returns tokens in order: the end of the text among the
first `2 * length + 1` calls and ever after, offsets that never decrease, and the end of a region
only where its closing character stands. -/
theorem calls_orderly (g : Grammar) (text : String)
    (h : g = .expression → ¬ Expression.MeetsTooLong text) :
    ∃ token : Nat → Token, (∀ n, g.tokenAfter text n = .ok (token n)) ∧
      Orderly text.toList token := by
  have hreads (s) (hs : Relation.ReflTransGen (Takes g.next?) (.start text.toList g.initial) s) :
      ∃ read, g.next? s = .ok read := by
    cases g with
    | script | substitution => exact ⟨_, rfl⟩
    | expression =>
      cases hnext : Expression.next? s with
      | ok read => exact ⟨read, hnext⟩
      | error e => exact absurd ⟨s, hs, (Expression.next?_eq_error_iff.1 hnext).2⟩ (h rfl)
  obtain ⟨s, token, hcalls, htokens⟩ := exists_calls hreads
  exact ⟨token, htokens, hcalls.orderly⟩

/-- An expression in which a string is left open. -/
theorem calls_orderly_open : ¬ Expression.MeetsTooLong "1 + \"a" ∧
    ∃ token : Nat → Token, (∀ n, Grammar.expression.tokenAfter "1 + \"a" n = .ok (token n)) ∧
      Orderly "1 + \"a".toList token := by
  have hshort : ¬ Expression.MeetsTooLong "1 + \"a" := by
    intro hlong
    have htokens := Expression.tokens_eq_error_iff.2 ⟨rfl, hlong⟩
    revert htokens
    decide +kernel
  exact ⟨hshort, calls_orderly .expression _ fun _ => hshort⟩

end Grammar

end Tickle.Token
