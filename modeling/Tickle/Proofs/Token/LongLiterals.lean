import Mathlib.Logic.Relation
import Tickle.Proofs.Token.ExpressionWords

/-! # Literals that are too long

Octal and hexadecimal literals are given in decimal, and only this can fail while an expression is
read: the scanner fails if and only if it comes to such a literal whose value has more than
`maxDigits` decimal digits. What stands in front of the literal need not make sense, and what stands
behind it is not looked at. -/

namespace Tickle.Reader

open Tickle.Text Token.Expression

/-- A text that begins with a literal of base eight or sixteen, and the value of the literal, which
has all the digits that follow. -/
inductive BasedLiteral : List Char → Nat → Prop
  | octal {digits rest : List Char} : digits ≠ [] → (∀ c ∈ digits, isOctalDigit c = true) →
      (∀ c ∈ rest.head?, isOctalDigit c = false) →
      BasedLiteral ('0' :: (digits ++ rest)) (valueOf 8 digits)
  | hexadecimal {mark : Char} {digits rest : List Char} : mark = 'x' ∨ mark = 'X' →
      (∀ c ∈ digits, isHexDigit c = true) → (∀ c ∈ rest.head?, isHexDigit c = false) →
      BasedLiteral ('0' :: mark :: (digits ++ rest)) (valueOf 16 digits)

/-- A text that begins with a literal whose value has too many decimal digits. -/
def BeginsTooLong (cs : List Char) : Prop :=
  ∃ value, BasedLiteral cs value ∧ Number.maxDigits < Decimal.digitCount value

theorem length_toString (n : Nat) : (toString n).length = Decimal.digitCount n := by
  rw [Nat.toString_eq_ofList_toDigits, String.length_ofList, Decimal.digitCount]

theorem decimalText?_eq_none_iff {n : Nat} :
    decimalText? n = none ↔ Number.maxDigits < Decimal.digitCount n := by
  rw [← length_toString, decimalText?]
  split
  · rename_i hlong
    exact iff_of_true rfl hlong
  · rename_i hshort
    exact iff_of_false nofun hshort

theorem decimalText?_of_le {n : Nat} (h : Decimal.digitCount n ≤ Number.maxDigits) :
    decimalText? n = some (toString n) := by
  rw [decimalText?, if_neg (by rw [length_toString]; exact Nat.not_lt.2 h)]

section Based

variable {digits rest : List Char}

theorem readNumber_octal (hne : digits ≠ []) (hdigits : ∀ c ∈ digits, isOctalDigit c = true)
    (hrest : ∀ c ∈ rest.head?, isOctalDigit c = false) :
    readNumber ('0' :: (digits ++ rest)) = (decimalText? (valueOf 8 digits), rest) := by
  have htake := takeWhile_of_run hdigits hrest
  have hdrop := dropWhile_of_run hdigits hrest
  obtain ⟨d, ds, rfl⟩ := List.exists_cons_of_ne_nil hne
  rw [List.cons_append] at htake hdrop ⊢
  rw [readNumber, if_pos (hdigits d List.mem_cons_self), htake, hdrop]

theorem readNumber_hexadecimal {mark : Char} (hmark : mark = 'x' ∨ mark = 'X')
    (hdigits : ∀ c ∈ digits, isHexDigit c = true)
    (hrest : ∀ c ∈ rest.head?, isHexDigit c = false) :
    readNumber ('0' :: mark :: (digits ++ rest)) = (decimalText? (valueOf 16 digits), rest) := by
  have hoctal : isOctalDigit mark = false := by
    rcases hmark with rfl | rfl <;> rfl
  rw [readNumber, if_neg (by simp [hoctal]), if_pos (by simpa using hmark),
    takeWhile_of_run hdigits hrest, dropWhile_of_run hdigits hrest]

end Based

/-- A literal of base eight or sixteen is given in decimal. -/
theorem BasedLiteral.readNumber_fst {cs : List Char} {value : Nat} (h : BasedLiteral cs value) :
    (readNumber cs).1 = decimalText? value := by
  cases h with
  | octal hne hdigits hrest => rw [readNumber_octal hne hdigits hrest]
  | hexadecimal hmark hdigits hrest => rw [readNumber_hexadecimal hmark hdigits hrest]

/-- A number that cannot be given is a literal of base eight or sixteen. -/
theorem exists_of_readNumber_fst_eq_none {cs : List Char} (h : (readNumber cs).1 = none) :
    ∃ value, BasedLiteral cs value ∧ decimalText? value = none := by
  unfold readNumber at h
  split at h
  · rename_i c rest
    split at h
    · rename_i hoctal
      have hliteral : BasedLiteral ('0' :: ((c :: rest).takeWhile isOctalDigit ++
          (c :: rest).dropWhile isOctalDigit)) _ :=
        .octal (by simp [hoctal]) (fun d hd => List.mem_takeWhile_imp hd)
          eq_false_of_mem_head?_dropWhile
      rw [List.takeWhile_append_dropWhile] at hliteral
      exact ⟨_, hliteral, h⟩
    · split at h
      · rename_i hmark
        have hliteral : BasedLiteral ('0' :: c :: (rest.takeWhile isHexDigit ++
            rest.dropWhile isHexDigit)) _ :=
          .hexadecimal (by simpa using hmark) (fun d hd => List.mem_takeWhile_imp hd)
            eq_false_of_mem_head?_dropWhile
        rw [List.takeWhile_append_dropWhile] at hliteral
        exact ⟨_, hliteral, h⟩
      · cases h
  · cases h

theorem readNumber_fst_eq_none_iff {cs : List Char} :
    (readNumber cs).1 = none ↔ BeginsTooLong cs := by
  constructor
  · intro h
    obtain ⟨value, hliteral, hlong⟩ := exists_of_readNumber_fst_eq_none h
    exact ⟨value, hliteral, decimalText?_eq_none_iff.1 hlong⟩
  · rintro ⟨value, hliteral, hlong⟩
    rw [hliteral.readNumber_fst, decimalText?_eq_none_iff.2 hlong]

theorem BasedLiteral.exists_eq_cons {cs : List Char} {value : Nat} (h : BasedLiteral cs value) :
    ∃ rest, cs = '0' :: rest := by
  cases h <;> exact ⟨_, rfl⟩

end Tickle.Reader

namespace Tickle.Token

/-- One token is taken by a scanner that goes on as `next?` says. -/
def Takes {Mode : Type} (next? : Scanner Mode → Except Error (Option (Token × Scanner Mode)))
    (s s' : Scanner Mode) : Prop :=
  ∃ t, next? s = .ok (some (t, s'))

namespace Expression

open Tickle.Reader

/-- Only a literal that is too long cannot be read as a token. -/
theorem readToken_eq_error_iff {c : Char} {rest : List Char} {e : Error} :
    readToken c rest = .error e ↔ e = .numeralTooLong ∧ BeginsTooLong (c :: rest) := by
  constructor
  · intro h
    unfold readToken at h
    split at h
    · dsimp only at h
      split at h
      · cases h
      · rename_i hnone
        cases h
        exact ⟨rfl, readNumber_fst_eq_none_iff.1 hnone⟩
    · split at h
      · cases h
      · split at h
        · cases h
        · split at h
          · cases h
          · split at h <;> cases h
  · rintro ⟨rfl, hlong⟩
    have hnone := readNumber_fst_eq_none_iff.2 hlong
    obtain ⟨value, hliteral, -⟩ := hlong
    obtain ⟨_, heq⟩ := hliteral.exists_eq_cons
    cases heq
    have hstart : startsNumber '0' rest = true := rfl
    simp only [readToken, hstart, if_true, hnone]

/-- The scanner stands in front of a literal that is too long. -/
def AtTooLong (s : Scanner Mode) : Prop := s.mode = .plain ∧ BeginsTooLong (skipBlanks s.rest)

theorem next?_eq_error_iff {s : Scanner Mode} {e : Error} :
    next? s = .error e ↔ e = .numeralTooLong ∧ AtTooLong s := by
  obtain ⟨size, rest, mode⟩ := s
  cases mode with
  | plain =>
    cases hskip : skipBlanks rest with
    | nil =>
      have hnone : ¬ BeginsTooLong [] := by
        rintro ⟨value, hliteral, -⟩
        cases hliteral
      simp [next?, AtTooLong, hskip, hnone]
    | cons c cs =>
      have hnext : next? ⟨size, rest, .plain⟩ = (readToken c cs).map fun step =>
          some ((⟨size, c :: cs, .plain⟩ : Scanner Mode).take step) := by
        simp only [next?, hskip]
      rw [hnext, AtTooLong]
      simp only [hskip, true_and]
      rw [← readToken_eq_error_iff]
      cases readToken c cs <;> simp [Except.map]
  | inside region =>
    simp only [next?, AtTooLong]
    split <;> simp
  | closing region =>
    simp only [next?, AtTooLong]
    split <;> simp

theorem tokensFrom_eq_error_iff {s : Scanner Mode} {e : Error} :
    tokensFrom s = .error e ↔
      ∃ s', Relation.ReflTransGen (Takes next?) s s' ∧ next? s' = .error e := by
  constructor
  · intro h
    fun_induction tokensFrom s with
    | case1 s e' hnext =>
      cases h
      exact ⟨s, .refl, hnext⟩
    | case2 => cases h
    | case3 s t s' hnext ih =>
      cases hrest : tokensFrom s' with
      | ok ts =>
        rw [hrest] at h
        cases h
      | error e' =>
        rw [hrest] at h
        cases h
        obtain ⟨last, htakes, hlast⟩ := ih hrest
        exact ⟨last, .head ⟨t, hnext⟩ htakes, hlast⟩
  · rintro ⟨last, htakes, hlast⟩
    induction htakes using Relation.ReflTransGen.head_induction_on with
    | refl =>
      rw [tokensFrom]
      split <;> rename_i heq <;> rw [hlast] at heq <;> cases heq
      rfl
    | head htake _ ih =>
      obtain ⟨t, hnext⟩ := htake
      rw [tokensFrom_of_next? hnext, ih]
      rfl

/-- Token by token, the scan of the text comes to a literal that is too long. -/
def MeetsTooLong (text : String) : Prop :=
  ∃ s, Relation.ReflTransGen (Takes next?) (.start text.toList .plain) s ∧ AtTooLong s

theorem tokens_eq_error_iff {text : String} {e : Error} :
    tokens text = .error e ↔ e = .numeralTooLong ∧ MeetsTooLong text := by
  rw [tokens, tokensFrom_eq_error_iff]
  simp only [next?_eq_error_iff, MeetsTooLong]
  constructor
  · rintro ⟨s, htakes, rfl, hlong⟩
    exact ⟨rfl, s, htakes, hlong⟩
  · rintro ⟨rfl, s, htakes, hlong⟩
    exact ⟨s, htakes, rfl, hlong⟩

end Expression

end Tickle.Token
