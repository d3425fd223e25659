import Mathlib.Data.List.Basic
import Tickle.Proofs.Token.LongLiterals
import Tickle.Proofs.Value.IntegerResults

/-! # Notations of integers

A natural number may be written in decimal, in hexadecimal behind `0x` and in octal behind `0`. The
scanner gives the last two in decimal, so all three have the same value: the number, wrapped to 64
bits. The number may be as large as an integer in decimal text may be; the zeros in front of its
digits in base eight or sixteen do not count. -/

namespace Tickle

namespace Reader

/-! ## Digits in a base -/

theorem valueOf_append (base : Nat) (digits : List Char) (c : Char) :
    valueOf base (digits ++ [c]) = base * valueOf base digits + digitValue c := by
  rw [valueOf, List.foldl_append]
  rfl

theorem digitValue_digitChar {d : Nat} (h : d < 16) : digitValue (Nat.digitChar d) = d := by
  have hall : ∀ e < 16, digitValue (Nat.digitChar e) = e := by decide
  exact hall d h

/-- The digits of a number have the number as their value. -/
theorem valueOf_toDigits {base : Nat} (hone : 1 < base) (hbase : base ≤ 16) (n : Nat) :
    valueOf base (Nat.toDigits base n) = n := by
  induction n using Nat.strongRecOn with
  | ind n ih =>
    by_cases hlt : n < base
    · rw [Nat.toDigits_of_lt_base hlt]
      show base * 0 + digitValue (Nat.digitChar n) = n
      rw [digitValue_digitChar (by omega), Nat.mul_zero, Nat.zero_add]
    · have hle : base ≤ n := Nat.not_lt.1 hlt
      have hmod : n % base < 16 := Nat.lt_of_lt_of_le (Nat.mod_lt n (by omega)) hbase
      rw [Nat.toDigits_of_base_le hone hle, valueOf_append, digitValue_digitChar hmod,
        ih (n / base) (Nat.div_lt_self (by omega) hone), Nat.div_add_mod]

theorem valueOf_zeros_append (base zeros : Nat) (digits : List Char) :
    valueOf base (List.replicate zeros '0' ++ digits) = valueOf base digits := by
  induction zeros with
  | zero => rfl
  | succ zeros ih =>
    have hzero : base * 0 + digitValue '0' = 0 := Nat.mul_zero base
    rw [← ih, List.replicate_succ, List.cons_append, valueOf, List.foldl_cons, hzero, valueOf]

theorem exists_digit_of_mem_toDigits {base n : Nat} (hone : 1 < base) {c : Char}
    (hc : c ∈ Nat.toDigits base n) : ∃ d < base, c = Nat.digitChar d := by
  induction n using Nat.strongRecOn with
  | ind n ih =>
    by_cases hlt : n < base
    · rw [Nat.toDigits_of_lt_base hlt] at hc
      exact ⟨n, hlt, List.mem_singleton.1 hc⟩
    · rw [Nat.toDigits_of_base_le hone (Nat.not_lt.1 hlt)] at hc
      rcases List.mem_append.1 hc with hc | hc
      · exact ih (n / base) (Nat.div_lt_self (by omega) hone) hc
      · exact ⟨n % base, Nat.mod_lt n (by omega), List.mem_singleton.1 hc⟩

/-- Digits of a number with zeros in front of them. -/
def zeroPadded (base zeros n : Nat) : List Char :=
  List.replicate zeros '0' ++ Nat.toDigits base n

theorem exists_digit_of_mem_zeroPadded {base zeros n : Nat} (hone : 1 < base) {c : Char}
    (hc : c ∈ zeroPadded base zeros n) : ∃ d < base, c = Nat.digitChar d := by
  rcases List.mem_append.1 hc with hc | hc
  · exact ⟨0, by omega, List.eq_of_mem_replicate hc⟩
  · exact exists_digit_of_mem_toDigits hone hc

theorem valueOf_zeroPadded {base : Nat} (hone : 1 < base) (hbase : base ≤ 16) (zeros n : Nat) :
    valueOf base (zeroPadded base zeros n) = n := by
  rw [zeroPadded, valueOf_zeros_append, valueOf_toDigits hone hbase]

/-- Only capital letters have a small one. -/
theorem toLower_cases (c : Char) :
    c.toLower = c ∨ ∃ k < 26, c = Char.ofNat ('A'.toNat + k) := by
  by_cases hc : 65 ≤ c.toNat ∧ c.toNat ≤ 90
  · refine .inr ⟨c.toNat - 65, by omega, ?_⟩
    rw [show 'A'.toNat + (c.toNat - 65) = c.toNat by
      show 65 + (c.toNat - 65) = c.toNat
      omega, Char.ofNat_toNat]
  · exact .inl (dif_neg hc)

/-- A hexadecimal digit of either case. -/
theorem isHexDigit_of_toLower {c : Char} {d : Nat} (hd : d < 16)
    (h : c.toLower = Nat.digitChar d) : isHexDigit c = true ∧ digitValue c = d := by
  rcases toLower_cases c with hsame | ⟨k, hk, rfl⟩
  · have hall : ∀ e < 16, isHexDigit (Nat.digitChar e) = true := by decide
    rw [hsame] at h
    rw [h]
    exact ⟨hall d hd, digitValue_digitChar hd⟩
  · have hall : ∀ j < 26, ∀ e < 16, (Char.ofNat ('A'.toNat + j)).toLower = Nat.digitChar e →
        isHexDigit (Char.ofNat ('A'.toNat + j)) = true ∧
          digitValue (Char.ofNat ('A'.toNat + j)) = e := by decide
    exact hall k hk d hd h

/-- Hexadecimal digits count the same in either case. -/
theorem valueOf_of_map_toLower {digits : List Char} {zeros n : Nat}
    (h : digits.map Char.toLower = zeroPadded 16 zeros n) :
    (∀ c ∈ digits, isHexDigit c = true) ∧ valueOf 16 digits = n := by
  have hdigit : ∀ c ∈ digits, ∃ d < 16, c.toLower = Nat.digitChar d := by
    intro c hc
    exact exists_digit_of_mem_zeroPadded (by decide) (h ▸ List.mem_map_of_mem hc)
  refine ⟨fun c hc => ?_, ?_⟩
  · obtain ⟨d, hd, hlower⟩ := hdigit c hc
    exact (isHexDigit_of_toLower hd hlower).1
  · have hsame : ∀ value, ∀ c ∈ digits,
        16 * value + digitValue c = 16 * value + digitValue c.toLower := by
      intro value c hc
      obtain ⟨d, hd, hlower⟩ := hdigit c hc
      rw [(isHexDigit_of_toLower hd hlower).2, hlower, digitValue_digitChar hd]
    calc valueOf 16 digits
        = valueOf 16 (digits.map Char.toLower) := by
          rw [valueOf, valueOf, List.foldl_map]
          exact List.foldl_ext _ _ _ hsame
      _ = n := by rw [h, valueOf_zeroPadded (by decide) (by decide)]

end Reader

namespace Token.Expression

open Reader

theorem readToken_number {cs rest : List Char} {text : String}
    (h : readNumber ('0' :: (cs ++ rest)) = (some text, rest)) :
    readToken '0' (cs ++ rest) = .ok ⟨.number, text, rest, .plain⟩ := by
  have hstart : startsNumber '0' (cs ++ rest) = true := rfl
  simp only [readToken, hstart, if_true, h]

theorem Ends.not_digit {rest : List Char} (h : Ends rest) :
    ∀ c ∈ rest.head?, isHexDigit c = false ∧ isOctalDigit c = false := by
  intro c hc
  rw [h c hc]
  exact ⟨rfl, rfl⟩

end Token.Expression

namespace Value

open Token Token.Expression Reader

/-- Texts that denote a natural number: its decimal digits, or its digits in base sixteen or eight
behind the mark of the base. Zeros may stand in front of these, and hexadecimal digits may be
letters of either case. -/
inductive Literal (n : Nat) : String → Prop
  | decimal : Literal n (toString n)
  | hexadecimal {text : String} {mark : Char} {digits : List Char} (zeros : Nat) :
      mark = 'x' ∨ mark = 'X' → digits.map Char.toLower = zeroPadded 16 zeros n →
      text.toList = '0' :: mark :: digits → Literal n text
  | octal {text : String} (zeros : Nat) : text.toList = '0' :: zeroPadded 8 zeros n →
      Literal n text

/-- Whatever its notation is, a literal is a token that has the number in decimal as its text. -/
theorem Literal.reads {n : Nat} {text : String} (h : Literal n text)
    (hshort : Decimal.digitCount n ≤ Number.maxDigits) :
    Reads text (Single .number (toString n)) := by
  have htext := decimalText?_of_le hshort
  cases h with
  | decimal => exact (isWord_number n).reads (by decide)
  | hexadecimal zeros hmark hlower hwritten =>
    obtain ⟨hdigits, hvalue⟩ := valueOf_of_map_toLower hlower
    refine reads_of_readToken hwritten (by decide) (by decide) fun rest hr => ?_
    refine readToken_number ?_
    rw [List.cons_append, readNumber_hexadecimal hmark hdigits fun c hc => (hr.not_digit c hc).1,
      hvalue, htext]
  | octal zeros hwritten =>
    have hdigits : ∀ c ∈ zeroPadded 8 zeros n, isOctalDigit c = true := by
      intro c hc
      obtain ⟨d, hd, rfl⟩ := exists_digit_of_mem_zeroPadded (by decide) hc
      have hall : ∀ e < 8, isOctalDigit (Nat.digitChar e) = true := by decide
      exact hall d hd
    have hne : zeroPadded 8 zeros n ≠ [] :=
      List.append_ne_nil_of_right_ne_nil _ Nat.toDigits_ne_nil
    refine reads_of_readToken hwritten (by decide) (by decide) fun rest hr => ?_
    refine readToken_number ?_
    rw [readNumber_octal hne hdigits fun c hc => (hr.not_digit c hc).2,
      valueOf_zeroPadded (by decide) (by decide), htext]

/-- A number of at most `maxDigits` decimal digits has the same value in all its notations, also as
an operand: itself, wrapped to 64 bits. -/
theorem literal_value {n : Nat} {text : String} (h : Literal n text)
    (hshort : Decimal.digitCount n ≤ Number.maxDigits) :
    ReadsAs text (.int (.ofInt n)) ∧
      (ofExpression text).map Value.text = .ok (toString ((n : Int).bmod (2 ^ 64))) := by
  have hreads : ReadsAs text (.int (.ofInt n)) := readsAs_of_reads hshort (h.reads hshort)
  refine ⟨hreads, ?_⟩
  rw [hreads.ofExpression]
  show Except.ok (toString (Int64.ofInt n).toInt) = _
  rw [Int64.toInt_ofInt]
  rfl

/-- The greatest number of 64 bits is -1 in each notation. -/
theorem literal_value_greatest :
    let n := 18446744073709551615
    Literal n "0X00FFFFffffFFFFffff" ∧ Literal n "001777777777777777777777" ∧
      Decimal.digitCount n ≤ Number.maxDigits ∧
      (ofExpression "18446744073709551615").map text = .ok "-1" ∧
      (ofExpression "0X00FFFFffffFFFFffff").map text = .ok "-1" ∧
      (ofExpression "001777777777777777777777").map text = .ok "-1" := by
  intro n
  have htext : toString n = "18446744073709551615" := by decide
  have hdecimal : Literal n "18446744073709551615" := htext ▸ .decimal
  have hhexadecimal : Literal n "0X00FFFFffffFFFFffff" :=
    .hexadecimal 2 (.inr rfl) (by decide) rfl
  have hoctal : Literal n "001777777777777777777777" := .octal 1 (by decide)
  have hshort : Decimal.digitCount n ≤ Number.maxDigits := by decide
  have hwrapped : toString ((n : Int).bmod (2 ^ 64)) = "-1" := by decide
  have hvalue : ∀ {t}, Literal n t → (ofExpression t).map text = .ok "-1" := by
    intro t ht
    rw [(literal_value ht hshort).2, hwrapped]
  exact ⟨hhexadecimal, hoctal, hshort, hvalue hdecimal, hvalue hhexadecimal, hvalue hoctal⟩

end Value

end Tickle
