import Tickle.Number.Numeral

/-! # Decimal integers in text

A decimal integer is a row of decimal digits, possibly with a sign in front of it; the digits may be
those of any script, and zeros may lead. If it is not too long, it is read as its value. -/

namespace Tickle

namespace Text

theorem exists_of_isDecimal {c : Char} (h : isDecimal c = true) :
    ∃ z ∈ zeroDigits, z ≤ c.toNat ∧ c.toNat < z + 10 ∧ decimalValue? c = some (c.toNat - z) := by
  rw [isDecimal, decimalValue?, Option.isSome_map] at h
  obtain ⟨z, hz⟩ := Option.isSome_iff_exists.1 h
  have hrange : z ≤ c.toNat ∧ c.toNat < z + 10 := by simpa using List.find?_some hz
  exact ⟨z, List.mem_of_find?_eq_some hz, hrange.1, hrange.2, by rw [decimalValue?, hz]; rfl⟩

/-- No digit is a blank. -/
theorem isBlank_of_isDecimal {c : Char} (h : isDecimal c = true) : isBlank c = false := by
  have hapart : ∀ z ∈ zeroDigits, ∀ r ∈ blankRanges, z + 10 ≤ r.1 ∨ r.2 < z := by decide
  obtain ⟨z, hz, hle, hlt, -⟩ := exists_of_isDecimal h
  rw [Bool.eq_false_iff]
  intro hblank
  obtain ⟨r, hr, hmin, hmax⟩ := CodeRanges.holds_eq_true_iff.1 hblank
  have := hapart z hz r hr
  omega

theorem trim_eq_self {p : Char → Bool} {cs : List Char} (h : ∀ c ∈ cs, p c = false) :
    trim p cs = cs := by
  have hstart : ∀ {cs : List Char}, (∀ c ∈ cs, p c = false) → cs.dropWhile p = cs := by
    intro cs hcs
    cases cs with
    | nil => rfl
    | cons c rest =>
      exact List.dropWhile_cons_of_neg (by simp [hcs c List.mem_cons_self])
  rw [trim, trimStart, hstart h, trimEnd, hstart (by simpa using h), List.reverse_reverse]

end Text

namespace Number

open Tickle.Text

/-- Value of decimal digits of any script, the first of which counts most. -/
def placeValue (digits : List Char) : Nat :=
  digits.foldl (fun n c => 10 * n + (decimalValue? c).getD 0) 0

/-- Decimal digits, at least one and at most as many as are read as an integer. -/
structure IsNumeral (digits : List Char) : Prop where
  nonempty : digits ≠ []
  decimal : ∀ c ∈ digits, isDecimal c = true
  short : digits.length ≤ maxDigits

instance : DecidablePred IsNumeral := fun digits =>
  decidable_of_iff (digits ≠ [] ∧ digits.all isDecimal = true ∧ digits.length ≤ maxDigits)
    ⟨fun h => ⟨h.1, List.all_eq_true.1 h.2.1, h.2.2⟩,
      fun h => ⟨h.nonempty, List.all_eq_true.2 h.decimal, h.short⟩⟩

/-- Decimal integers as they are written. -/
inductive Written : String → Int → Prop
  | unsigned {text : String} {digits : List Char} : IsNumeral digits → text.toList = digits →
    Written text (placeValue digits)
  | positive {text : String} {digits : List Char} : IsNumeral digits →
    text.toList = '+' :: digits → Written text (placeValue digits)
  | negative {text : String} {digits : List Char} : IsNumeral digits →
    text.toList = '-' :: digits → Written text (-placeValue digits)

theorem plainDigit_of_isDecimal {c : Char} (h : isDecimal c = true) :
    (plainDigit c).isDigit = true ∧
      (plainDigit c).toNat - '0'.toNat = (decimalValue? c).getD 0 := by
  have hdigits : ∀ v < 10, (Char.ofNat ('0'.toNat + v)).isDigit = true ∧
      (Char.ofNat ('0'.toNat + v)).toNat - '0'.toNat = v := by decide
  obtain ⟨z, -, -, hlt, hvalue⟩ := exists_of_isDecimal h
  rw [plainDigit, hvalue]
  exact hdigits _ (by omega)

theorem ofDigits_map_plainDigit {digits : List Char} (h : ∀ c ∈ digits, isDecimal c = true) :
    ofDigits (digits.map plainDigit) = placeValue digits := by
  have hfold : ∀ n, Nat.ofDigitChars 10 (digits.map plainDigit) n =
      digits.foldl (fun n c => 10 * n + (decimalValue? c).getD 0) n := by
    induction digits with
    | nil => exact fun n => rfl
    | cons c rest ih =>
      obtain ⟨hc, hrest⟩ := List.forall_mem_cons.1 h
      intro n
      rw [List.map_cons, Nat.ofDigitChars_cons, ih hrest, (plainDigit_of_isDecimal hc).2]
      rfl
  exact hfold 0

theorem ungroup_eq_self {cs : List Char} (afterDigit : Bool) (h : '_' ∉ cs) :
    ungroup afterDigit cs = some cs := by
  induction cs generalizing afterDigit with
  | nil => rfl
  | cons c rest ih =>
    have hc : c ≠ '_' := (List.ne_of_not_mem_cons h).symm
    have hrest : '_' ∉ rest := List.not_mem_of_not_mem_cons h
    simp [ungroup, hc, ih _ hrest]

section Reading

variable {text : String} {sign digits : List Char}

/-- A sign that is no digit, and digits behind it, are all that is left of their text. -/
theorem plain?_of_digits (sign : List Char)
    (hsign : ∀ c ∈ sign, plainDigit c = c ∧ isNumeralBlank c = false ∧ c ≠ '_')
    (hdigits : ∀ c ∈ digits, isDecimal c = true) (htext : text.toList = sign ++ digits) :
    plain? text = some (sign ++ digits.map plainDigit) := by
  have htrim : trim isNumeralBlank text.toList = text.toList := by
    refine trim_eq_self fun c hc => ?_
    rw [htext] at hc
    rcases List.mem_append.1 hc with hc | hc
    · exact (hsign c hc).2.1
    · rw [isNumeralBlank, isBlank_of_isDecimal (hdigits c hc), Bool.false_and]
  have hmap : sign.map plainDigit = sign :=
    (List.map_congr_left fun c hc => (hsign c hc).1).trans (List.map_id sign)
  have hgroup : '_' ∉ sign ++ digits.map plainDigit := by
    intro hmem
    rcases List.mem_append.1 hmem with hmem | hmem
    · exact (hsign '_' hmem).2.2 rfl
    · obtain ⟨c, hc, heq⟩ := List.mem_map.1 hmem
      have hdigit := (plainDigit_of_isDecimal (hdigits c hc)).1
      rw [heq] at hdigit
      exact absurd hdigit (by decide)
  rw [plain?, htrim, htext, List.map_append, hmap, ungroup_eq_self _ hgroup]

theorem splitSign_of_isNumeral (h : IsNumeral digits) :
    splitSign (digits.map plainDigit) = (false, digits.map plainDigit) := by
  cases digits with
  | nil => exact absurd rfl h.nonempty
  | cons c rest =>
    have hdigit := (plainDigit_of_isDecimal (h.decimal c List.mem_cons_self)).1
    have hne : ∀ d : Char, d.isDigit = false → plainDigit c ≠ d := by
      rintro d hd rfl
      cases hd.symm.trans hdigit
    rw [List.map_cons, splitSign]
    · exact fun _ heq => hne '-' (by decide) (List.cons.inj heq).1
    · exact fun _ heq => hne '+' (by decide) (List.cons.inj heq).1

/-- The text comes down to a sign, or none, and plain digits with this value. -/
def ComesDownTo (text : String) (n : Int) : Prop :=
  ∃ cs negative plain, plain? text = some cs ∧ splitSign cs = (negative, plain) ∧ plain ≠ [] ∧
    (∀ c ∈ plain, c.isDigit = true) ∧ plain.length ≤ maxDigits ∧
    n = if negative then -(ofDigits plain : Int) else ofDigits plain

/-- Digits with a sign, once the sign has been taken off. -/
theorem comesDownTo_of_splitSign {negative : Bool} (h : IsNumeral digits)
    (hplain : plain? text = some (sign ++ digits.map plainDigit))
    (hsplit : splitSign (sign ++ digits.map plainDigit) = (negative, digits.map plainDigit)) :
    ComesDownTo text (if negative then -(placeValue digits : Int) else placeValue digits) := by
  refine ⟨_, _, _, hplain, hsplit, mt List.map_eq_nil_iff.1 h.nonempty, ?_, ?_, ?_⟩
  · exact List.forall_mem_map.2 fun c hc => (plainDigit_of_isDecimal (h.decimal c hc)).1
  · rw [List.length_map]
    exact h.short
  · rw [ofDigits_map_plainDigit h.decimal]

theorem Written.comesDownTo {n : Int} (h : Written text n) : ComesDownTo text n := by
  cases h with
  | unsigned hnumeral htext =>
    have hplain := plain?_of_digits [] nofun hnumeral.decimal htext
    exact comesDownTo_of_splitSign hnumeral hplain (splitSign_of_isNumeral hnumeral)
  | positive hnumeral htext =>
    have hplain := plain?_of_digits ['+'] (List.forall_mem_singleton.2 (by decide))
      hnumeral.decimal htext
    exact comesDownTo_of_splitSign hnumeral hplain rfl
  | negative hnumeral htext =>
    have hplain := plain?_of_digits ['-'] (List.forall_mem_singleton.2 (by decide))
      hnumeral.decimal htext
    exact comesDownTo_of_splitSign hnumeral hplain rfl

/-- A decimal integer is read as its value. -/
theorem Written.readInt? {n : Int} (h : Written text n) : readInt? text = some n := by
  obtain ⟨cs, negative, plain, hplain, hsplit, hne, hall, hshort, rfl⟩ := h.comesDownTo
  have hsigned : signed? cs =
      some (if negative then -(ofDigits plain : Int) else ofDigits plain) := by
    rw [signed?, hsplit]
    dsimp only
    rw [List.all_eq_true.2 hall, List.isEmpty_eq_false_iff.2 hne]
    rfl
  rw [Number.readInt?, hplain, Option.bind_eq_bind, Option.bind_some, hsplit,
    if_neg (Nat.not_lt.2 hshort), hsigned]

end Reading

/-! ## Text of naturals -/

theorem exists_of_isDigit {c : Char} (h : c.isDigit = true) :
    ∃ v < 10, c = Char.ofNat (48 + v) := by
  have hrange : 48 ≤ c.toNat ∧ c.toNat ≤ 57 := Char.isDigit_iff_toNat.1 h
  exact ⟨c.toNat - 48, by omega, by rw [Nat.add_sub_cancel' hrange.1, Char.ofNat_toNat]⟩

/-- The digits `0` to `9` stand for themselves. -/
theorem isDecimal_of_isDigit {c : Char} (h : c.isDigit = true) :
    isDecimal c = true ∧ plainDigit c = c := by
  have hcodes : ∀ v < 10, isDecimal (Char.ofNat (48 + v)) = true ∧
      plainDigit (Char.ofNat (48 + v)) = Char.ofNat (48 + v) := by decide
  obtain ⟨v, hv, rfl⟩ := exists_of_isDigit h
  exact hcodes v hv

section Digits

variable {n : Nat}

theorem isDigit_of_mem_toDigits {c : Char} (h : c ∈ Nat.toDigits 10 n) : c.isDigit = true :=
  Nat.isDigit_of_mem_toDigits (by decide) (by decide) h

theorem isNumeral_toDigits (h : Decimal.digitCount n ≤ maxDigits) :
    IsNumeral (Nat.toDigits 10 n) where
  nonempty := Nat.toDigits_ne_nil
  decimal := fun _ hc => (isDecimal_of_isDigit (isDigit_of_mem_toDigits hc)).1
  short := h

theorem placeValue_toDigits (n : Nat) : placeValue (Nat.toDigits 10 n) = n := by
  have hdecimal : ∀ c ∈ Nat.toDigits 10 n, isDecimal c = true ∧ plainDigit c = c :=
    fun c hc => isDecimal_of_isDigit (isDigit_of_mem_toDigits hc)
  have hplain : (Nat.toDigits 10 n).map plainDigit = Nat.toDigits 10 n :=
    (List.map_congr_left fun c hc => (hdecimal c hc).2).trans (List.map_id _)
  rw [← ofDigits_map_plainDigit fun c hc => (hdecimal c hc).1, hplain]
  exact Nat.ofDigitChars_toDigits (by decide) (by decide)

/-- A natural that is not too long is written in digits. -/
theorem written_toString (h : Decimal.digitCount n ≤ maxDigits) : Written (toString n) n := by
  have hwritten : Written (toString n) (placeValue (Nat.toDigits 10 n)) :=
    .unsigned (isNumeral_toDigits h) (by rw [Nat.toString_eq_ofList_toDigits, String.toList_ofList])
  rwa [placeValue_toDigits] at hwritten

/-- So is an integer, behind a minus if it is negative. -/
theorem written_toString_int {k : Int} (h : Decimal.digitCount k.natAbs ≤ maxDigits) :
    Written (toString k) k := by
  cases k with
  | ofNat n => exact written_toString h
  | negSucc n =>
    have htext : (toString (Int.negSucc n)).toList = '-' :: Nat.toDigits 10 (n + 1) := by
      show ("-" ++ toString (n + 1)).toList = _
      rw [String.toList_append, Nat.toString_eq_ofList_toDigits]
      exact congrArg ('-' :: ·) String.toList_ofList
    have hwritten := Written.negative (isNumeral_toDigits h) htext
    rwa [Int.natAbs_negSucc, placeValue_toDigits] at hwritten

end Digits

end Number

end Tickle
