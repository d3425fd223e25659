import Tickle.Proofs.Text.NameChars
import Tickle.Proofs.Text.Runs
import Tickle.Token.Expression

/-! # Words of expressions

What is written between two spaces is read by itself: in front of a space or of the end of the text
a number, a name, an operator or a literal gives its own tokens, and reading goes on after it. The
rest of the text is left open throughout, so that words are joined by `Reads.space`. -/

namespace Tickle.Token.Expression

open Tickle.Text Tickle.Reader

/-! ## Reading on -/

theorem tokensFrom_of_next? {s s' : Scanner Mode} {t : Token}
    (h : next? s = .ok (some (t, s'))) : tokensFrom s = (tokensFrom s').map (t :: ·) := by
  rw [tokensFrom]
  split <;> rename_i heq <;> rw [h] at heq <;> cases heq
  rfl

theorem tokensFrom_of_readToken {c : Char} {cs : List Char} {step : Step Mode} (size : Nat)
    (hc : isBlank c = false) (h : readToken c cs = .ok step) :
    ∃ t : Token, t.kind = step.kind ∧ t.text = some step.text ∧
      tokensFrom ⟨size, c :: cs, .plain⟩ =
        (tokensFrom ⟨size, step.rest, step.mode⟩).map (t :: ·) := by
  have hskip : skipBlanks (c :: cs) = c :: cs := List.dropWhile_cons_of_neg (by simp [hc])
  have hnext : next? ⟨size, c :: cs, .plain⟩ =
      .ok (some ((⟨size, c :: cs, .plain⟩ : Scanner Mode).take step)) := by
    simp only [next?, hskip, h]
    rfl
  exact ⟨_, rfl, rfl, tokensFrom_of_next? hnext⟩

theorem tokensFrom_space (size : Nat) (rest : List Char) :
    tokensFrom ⟨size, ' ' :: rest, .plain⟩ = tokensFrom ⟨size, rest, .plain⟩ := by
  have hnext : next? ⟨size, ' ' :: rest, .plain⟩ = next? ⟨size, rest, .plain⟩ := rfl
  cases h : next? ⟨size, rest, .plain⟩ with
  | error e =>
    rw [tokensFrom, tokensFrom]
    split <;> rename_i heq <;> rw [hnext, h] at heq <;> cases heq
    split <;> rename_i heq <;> rw [h] at heq <;> cases heq
    rfl
  | ok next =>
    cases next with
    | none =>
      rw [tokensFrom, tokensFrom]
      split <;> rename_i heq <;> rw [hnext, h] at heq <;> cases heq
      split <;> rename_i heq <;> rw [h] at heq <;> cases heq
      rfl
    | some r => rw [tokensFrom_of_next? (hnext.trans h), tokensFrom_of_next? h]

theorem tokensFrom_nil (size : Nat) :
    tokensFrom ⟨size, [], .plain⟩ = .ok [⟨.endOfText, none, size⟩] := by
  rw [tokensFrom]
  rfl

/-! ## Words in front of a space -/

/-- A word ends in front of these characters. -/
def Ends (rest : List Char) : Prop := ∀ c ∈ rest.head?, c = ' '

theorem ends_nil : Ends [] := nofun

theorem ends_space (rest : List Char) : Ends (' ' :: rest) := by
  intro c hc
  cases hc
  rfl

/-- The text is read as tokens of which `D` holds, wherever it stands in front of a space. -/
def Reads (text : String) (D : List Token → Prop) : Prop :=
  ∀ size rest, Ends rest → ∃ ts, D ts ∧ (∀ t ∈ ts, t.kind ≠ .endOfText) ∧
    tokensFrom ⟨size, text.toList ++ rest, .plain⟩ =
      (tokensFrom ⟨size, rest, .plain⟩).map (ts ++ ·)

theorem Reads.mono {text : String} {D D' : List Token → Prop} (h : Reads text D)
    (hD : ∀ ts, D ts → D' ts) : Reads text D' := by
  intro size rest hr
  obtain ⟨ts, hd, hts⟩ := h size rest hr
  exact ⟨ts, hD ts hd, hts⟩

/-- A space separates what is in front of it from what is behind it. -/
theorem Reads.space {text text' : String} {D D' : List Token → Prop} (h : Reads text D)
    (h' : Reads text' D') :
    Reads (text ++ " " ++ text') fun ts => ∃ us vs, ts = us ++ vs ∧ D us ∧ D' vs := by
  intro size rest hr
  obtain ⟨us, hd, hus, hfront⟩ := h size (' ' :: (text'.toList ++ rest)) (ends_space _)
  obtain ⟨vs, hd', hvs, hback⟩ := h' size rest hr
  refine ⟨us ++ vs, ⟨us, vs, rfl, hd, hd'⟩, ?_, ?_⟩
  · intro t ht
    exact (List.mem_append.1 ht).elim (hus t) (hvs t)
  · have htext : (text ++ " " ++ text').toList ++ rest =
        text.toList ++ ' ' :: (text'.toList ++ rest) := by
      simp [String.toList_append]
    rw [htext, hfront, tokensFrom_space, hback]
    cases tokensFrom ⟨size, rest, .plain⟩ with
    | error e => rfl
    | ok more => exact congrArg Except.ok (List.append_assoc us vs more).symm

/-- A text that is read by itself up to a space is read as a whole. -/
theorem Reads.tokens {text : String} {D : List Token → Prop} (h : Reads text D) :
    ∃ ts, D ts ∧ ∃ tokens, Expression.tokens text = .ok tokens ∧ untilEnd tokens = ts := by
  obtain ⟨ts, hd, hts, hread⟩ := h text.toList.length [] ends_nil
  rw [List.append_nil, tokensFrom_nil] at hread
  refine ⟨ts, hd, _, hread, ?_⟩
  rw [untilEnd, List.takeWhile_append_of_pos (by simpa using hts)]
  simp

/-! ## Words of one token -/

/-- The text is one token of this kind, wherever it stands in front of a space. -/
def IsWord (text : String) (kind : Kind) : Prop :=
  ∃ c cs, text.toList = c :: cs ∧ isBlank c = false ∧
    ∀ rest, Ends rest → readToken c (cs ++ rest) = .ok ⟨kind, text, rest, .plain⟩

/-- A single token with this kind and text. -/
def Single (kind : Kind) (text : String) (ts : List Token) : Prop :=
  ∃ t : Token, ts = [t] ∧ t.kind = kind ∧ t.text = some text

/-- A token that ends in front of a space, whose text need not be what is written. -/
theorem reads_of_readToken {text value : String} {kind : Kind} {c : Char} {cs : List Char}
    (htext : text.toList = c :: cs) (hc : isBlank c = false) (hk : kind ≠ .endOfText)
    (hread : ∀ rest, Ends rest → readToken c (cs ++ rest) = .ok ⟨kind, value, rest, .plain⟩) :
    Reads text (Single kind value) := by
  intro size rest hr
  obtain ⟨t, hkind, hvalue, htokens⟩ := tokensFrom_of_readToken size hc (hread rest hr)
  refine ⟨[t], ⟨t, rfl, hkind, hvalue⟩, ?_, ?_⟩
  · intro t' ht'
    rw [List.mem_singleton.1 ht', hkind]
    exact hk
  · rw [htext]
    exact htokens

theorem IsWord.reads {text : String} {kind : Kind} (h : IsWord text kind)
    (hk : kind ≠ .endOfText) : Reads text (Single kind text) := by
  obtain ⟨c, cs, htext, hc, hread⟩ := h
  exact reads_of_readToken htext hc hk hread

/-- The two ways in which a word may end. -/
theorem isWord_of_ends {text : String} {kind : Kind} {c : Char} {cs : List Char}
    (htext : text.toList = c :: cs) (hc : isBlank c = false)
    (hnil : readToken c (cs ++ []) = .ok ⟨kind, text, [], .plain⟩)
    (hspace : ∀ rest, readToken c (cs ++ ' ' :: rest) = .ok ⟨kind, text, ' ' :: rest, .plain⟩) :
    IsWord text kind := by
  refine ⟨c, cs, htext, hc, fun rest hr => ?_⟩
  cases rest with
  | nil => exact hnil
  | cons d rest =>
    cases hr d rfl
    exact hspace rest

/-- Operators and parentheses. -/
def operatorKinds : List (String × Kind) :=
  [("**", .power), ("*", .times), ("/", .divide), ("%", .remainder), ("+", .plus), ("-", .minus),
   ("<<", .shiftLeft), (">>", .shiftRight), ("<", .less), (">", .more), ("<=", .atMost),
   (">=", .atLeast), ("eq", .equal), ("ne", .notEqual), ("in", .isIn), ("ni", .notIn),
   ("==", .equal), ("!=", .notEqual), ("&", .bitAnd), ("^", .bitXor), ("|", .bitOr),
   ("&&", .and), ("||", .or), ("!", .not), ("~", .bitNot), ("?", .question), (":", .colon),
   ("(", .leftParen), (")", .rightParen)]

theorem isWord_operator : ∀ p ∈ operatorKinds, IsWord p.1 p.2 := by
  simp only [operatorKinds, List.forall_mem_cons]
  refine ⟨?_, ?_, ?_, ?_, ?_, ?_, ?_, ?_, ?_, ?_, ?_, ?_, ?_, ?_, ?_, ?_, ?_, ?_, ?_, ?_, ?_, ?_,
    ?_, ?_, ?_, ?_, ?_, ?_, ?_, nofun⟩
  all_goals exact isWord_of_ends rfl rfl rfl fun _ => rfl

/-! ## Names -/

theorem startsNumber_of_isNameChar {c : Char} (hn : isNameChar c = true) (rest : List Char) :
    startsNumber c rest = isDigit c := by
  have hc : c ≠ '.' := ne_of_isNameChar hn rfl
  unfold startsNumber
  split
  · contradiction
  · rfl

theorem Ends.not_isNameChar {rest : List Char} (h : Ends rest) :
    ∀ c ∈ rest.head?, isNameChar c = false := by
  intro c hc
  rw [h c hc]
  rfl

/-- A run of name characters is an operator in letters or a name. -/
theorem isWord_wordKind {text : String} {c : Char} {cs : List Char} (htext : text.toList = c :: cs)
    (hname : ∀ d ∈ c :: cs, isNameChar d = true) (hdigit : isDigit c = false) :
    IsWord text (wordKind text) := by
  have hc : isNameChar c = true := hname c (by simp)
  refine ⟨c, cs, htext, isBlank_of_isNameChar hc, fun rest hr => ?_⟩
  have hstart : startsNumber c (cs ++ rest) = false := by
    rw [startsNumber_of_isNameChar hc, hdigit]
  have hquote : c ≠ '"' := ne_of_isNameChar hc rfl
  have hbrace : c ≠ '\x7b' := ne_of_isNameChar hc rfl
  have htake := takeWhile_of_run hname hr.not_isNameChar
  have hdrop := dropWhile_of_run hname hr.not_isNameChar
  have hofList : String.ofList (c :: cs) = text := by rw [← htext, String.ofList_toList]
  rw [List.cons_append] at htake hdrop
  simp only [readToken, hstart, hquote, hbrace, hc, htake, hdrop, hofList, Bool.false_eq_true,
    if_false, if_true]

/-! ## Numbers -/

theorem readDecimal_of_isDigit {cs rest : List Char} (hcs : ∀ c ∈ cs, c.isDigit = true)
    (hr : Ends rest) : readDecimal false (cs ++ rest) = (cs, rest) := by
  induction cs with
  | nil =>
    cases rest with
    | nil => rfl
    | cons d rest =>
      cases hr d rfl
      rfl
  | cons c cs ih =>
    have hc := isDigit_of_isDigit (hcs c (by simp))
    have hrest := ih fun d hd => hcs d (List.mem_cons_of_mem c hd)
    rw [List.cons_append, readDecimal, if_pos hc, hrest]
    rfl

/-- No zero stands in front of the other digits. -/
theorem toDigits_leading {n : Nat} (h : 0 < n) :
    ∃ c cs, Nat.toDigits 10 n = c :: cs ∧ c ≠ '0' := by
  induction n using Nat.strongRecOn with
  | ind n ih =>
    by_cases hlt : n < 10
    · refine ⟨Nat.digitChar n, [], Nat.toDigits_of_lt_base hlt, ?_⟩
      have hall : ∀ k < 10, 0 < k → Nat.digitChar k ≠ '0' := by decide
      exact hall n hlt h
    · obtain ⟨c, cs, hdiv, hc⟩ := ih (n / 10) (by omega) (by omega)
      refine ⟨c, cs ++ [Nat.digitChar (n % 10)], ?_, hc⟩
      rw [Nat.toDigits_of_base_le (by decide) (by omega), hdiv]
      rfl

/-- A numeral of digits without a leading zero is decimal. -/
theorem readNumber_toDigits (n : Nat) {rest : List Char} (hr : Ends rest) :
    readNumber (Nat.toDigits 10 n ++ rest) = (some (toString n), rest) := by
  have hdigits : ∀ c ∈ Nat.toDigits 10 n, c.isDigit = true := by
    intro c hc
    exact Nat.isDigit_of_mem_toDigits (by decide) (by decide) hc
  have hdecimal := readDecimal_of_isDigit hdigits hr
  have htext : String.ofList (Nat.toDigits 10 n) = toString n :=
    Nat.toString_eq_ofList_toDigits.symm
  cases n with
  | zero =>
    cases rest with
    | nil => rfl
    | cons d rest =>
      cases hr d rfl
      rfl
  | succ n =>
    obtain ⟨c, cs, hcs, hc⟩ := toDigits_leading (Nat.succ_pos n)
    rw [readNumber.eq_def]
    split
    · rename_i heq
      rw [hcs] at heq
      exact absurd (List.cons.inj heq).1 hc
    · rw [hdecimal, ← htext]

theorem isWord_number (n : Nat) : IsWord (toString n) .number := by
  obtain ⟨c, cs, hcs⟩ : ∃ c cs, Nat.toDigits 10 n = c :: cs :=
    List.exists_cons_of_ne_nil (Nat.toDigits_ne_nil)
  have htext : (toString n).toList = c :: cs := by
    rw [Nat.toString_eq_ofList_toDigits, String.toList_ofList, hcs]
  have hc : c.isDigit = true :=
    Nat.isDigit_of_mem_toDigits (by decide) (by decide) (hcs ▸ List.mem_cons_self)
  have hname := isNameChar_of_isDigit hc
  refine ⟨c, cs, htext, isBlank_of_isNameChar hname, fun rest hr => ?_⟩
  have hstart : startsNumber c (cs ++ rest) = true :=
    (startsNumber_of_isNameChar hname _).trans (isDigit_of_isDigit hc)
  have hread := readNumber_toDigits n hr
  rw [hcs, List.cons_append] at hread
  simp only [readToken, hstart, hread, if_true]

/-! ## Signs -/

/-- A minus sign is a token of its own, whatever follows it. -/
theorem readToken_minus (rest : List Char) :
    readToken '-' rest = .ok ⟨.minus, "-", rest, .plain⟩ := by
  have hpair : ∀ d, pairKind? '-' d = none := by
    intro d
    simp [pairKind?]
  have hoperator : operator? '-' rest = some (.minus, ['-'], rest) := by
    cases rest with
    | nil => rfl
    | cons d rest =>
      rw [operator?, List.head?_cons, Option.bind_some, hpair]
      rfl
  have hstart : startsNumber '-' rest = false := rfl
  have hname : isNameChar '-' = false := rfl
  simp [readToken, hstart, hname, hoperator]

/-- A minus sign is read by itself in front of any text that can be read. -/
theorem Reads.minus {text : String} {D : List Token → Prop} (h : Reads text D) :
    Reads ("-" ++ text) fun ts => ∃ t us, ts = t :: us ∧ t.kind = .minus ∧ t.text = some "-" ∧
      D us := by
  intro size rest hr
  obtain ⟨us, hd, hus, hread⟩ := h size rest hr
  obtain ⟨t, hk, ht, htokens⟩ := tokensFrom_of_readToken size (c := '-') rfl
    (readToken_minus (text.toList ++ rest))
  refine ⟨t :: us, ⟨t, us, rfl, hk, ht, hd⟩, ?_, ?_⟩
  · rw [List.forall_mem_cons, hk]
    exact ⟨nofun, hus⟩
  · have htext : ("-" ++ text).toList ++ rest = '-' :: (text.toList ++ rest) := by
      rw [String.toList_append]
      rfl
    rw [htext, htokens]
    dsimp only
    rw [hread]
    cases tokensFrom ⟨size, rest, .plain⟩ <;> rfl

/-! ## Literals -/

/-- The inside of a literal is read up to its closing quote, blanks and all. -/
theorem tokensFrom_inside {text : List Char} (h : '"' ∉ text) (size : Nat) (rest : List Char) :
    ∃ t : Token, t.kind = .string ∧ t.text = some (String.ofList text) ∧
      tokensFrom ⟨size, text ++ '"' :: rest, .inside .quotes⟩ =
        (tokensFrom ⟨size, '"' :: rest, .closing .quotes⟩).map (t :: ·) := by
  have hne : ∀ c ∈ text, decide (c ≠ '"') = true := by
    intro c hc
    exact decide_eq_true fun he => h (he ▸ hc)
  have hread : Region.read .quotes (text ++ '"' :: rest) = (text, '"' :: rest) := by
    simp only [Region.read]
    rw [takeWhile_of_run hne (by simp), dropWhile_of_run hne (by simp)]
  have hnext : next? ⟨size, text ++ '"' :: rest, .inside .quotes⟩ = .ok (some
      ((⟨size, text ++ '"' :: rest, .inside .quotes⟩ : Scanner Mode).take
        ⟨.string, String.ofList text, '"' :: rest, .closing .quotes⟩)) := by
    simp only [next?]
    split
    · rename_i hnil
      simp at hnil
    · rw [hread]
  exact ⟨_, rfl, rfl, tokensFrom_of_next? hnext⟩

theorem tokensFrom_closing (size : Nat) (rest : List Char) :
    ∃ t : Token, t.kind = .rightQuote ∧
      tokensFrom ⟨size, '"' :: rest, .closing .quotes⟩ =
        (tokensFrom ⟨size, rest, .plain⟩).map (t :: ·) := by
  have hnext : next? ⟨size, '"' :: rest, .closing .quotes⟩ = .ok (some
      ((⟨size, '"' :: rest, .closing .quotes⟩ : Scanner Mode).take
        ⟨.rightQuote, "\"", rest, .plain⟩)) := rfl
  exact ⟨_, rfl, tokensFrom_of_next? hnext⟩

/-- The tokens of a literal in quotes. -/
def Quoted (text : String) (ts : List Token) : Prop :=
  ∃ opening t closing : Token, ts = [opening, t, closing] ∧ opening.kind = .leftQuote ∧
    t.kind = .string ∧ t.text = some text ∧ closing.kind = .rightQuote

theorem reads_quoted {text : String} (h : '"' ∉ text.toList) :
    Reads ("\"" ++ text ++ "\"") (Quoted text) := by
  intro size rest _
  have htext : ("\"" ++ text ++ "\"").toList ++ rest =
      '"' :: (text.toList ++ '"' :: rest) := by
    simp [String.toList_append]
  obtain ⟨opening, ho, -, hopening⟩ := tokensFrom_of_readToken size (c := '"') rfl
    (show readToken '"' (text.toList ++ '"' :: rest) = .ok ⟨.leftQuote, "\"", _, .inside .quotes⟩
      from rfl)
  obtain ⟨t, ht, hvalue, hinside⟩ := tokensFrom_inside h size rest
  obtain ⟨closing, hc, hclosing⟩ := tokensFrom_closing size rest
  rw [String.ofList_toList] at hvalue
  refine ⟨[opening, t, closing], ⟨opening, t, closing, rfl, ho, ht, hvalue, hc⟩, ?_, ?_⟩
  · simp [ho, ht, hc]
  · rw [htext, hopening, hinside, hclosing]
    cases tokensFrom ⟨size, rest, .plain⟩ <;> rfl

end Tickle.Token.Expression
