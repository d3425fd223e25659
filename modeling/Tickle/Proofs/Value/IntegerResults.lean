import Tickle.Proofs.Tree.ExpressionText
import Tickle.Proofs.Value.IntegerRange

/-! # Integer results are read back

An integer that an expression gives is written in decimal, with a minus in front of it if it is
negative. As a part of another expression the minus is an operator and the digits are a literal; of
the least integer the literal is out of range, and the wrapped literal is its own negation. -/

namespace Tickle

open Token Token.Expression

namespace Value

/-- Wherever it stands in front of a space, the text is read as an operand with this value. -/
def ReadsAs (text : String) (v : Value) : Prop :=
  ∃ node, evaluate node = .ok v ∧ Reads text fun ts => Tree.Factor ts node

theorem ReadsAs.ofExpression {text : String} {v : Value} (h : ReadsAs text v) :
    ofExpression text = .ok v := by
  obtain ⟨node, hvalue, hreads⟩ := h
  have hparse : Tree.parseExpression text = .ok node :=
    Tree.parseExpression_of_reads (hreads.mono fun _ hfactor => (hfactor.fits 0).ternary)
  rw [Value.ofExpression_eq, hparse]
  exact hvalue

/-- A literal that is given in decimal has its natural number as value. -/
theorem readsAs_of_reads {text : String} {n : Nat} (h : Decimal.digitCount n ≤ Number.maxDigits)
    (hreads : Reads text (Single .number (toString n))) : ReadsAs text (.int (.ofInt n)) := by
  refine ⟨⟨.number, some (toString n), []⟩, ?_, hreads.mono ?_⟩
  · exact (Exact.number (Number.written_toString h)).evaluate_eq
  · rintro _ ⟨t, rfl, hk, ht⟩
    exact ht ▸ .number hk

theorem readsAs_natural {n : Nat} (h : Decimal.digitCount n ≤ Number.maxDigits) :
    ReadsAs (toString n) (.int (.ofInt n)) :=
  readsAs_of_reads h ((isWord_number n).reads (by decide))

theorem readsAs_negated {n : Nat} (h : Decimal.digitCount n ≤ Number.maxDigits) :
    ReadsAs ("-" ++ toString n) (.int (.ofInt (-n))) := by
  have hminus : exactUnary? "-" = some fun m => -m := rfl
  refine ⟨⟨.unary, some "-", [⟨.number, some (toString n), []⟩]⟩, ?_, ?_⟩
  · exact (Exact.unary hminus (.number (Number.written_toString h))).evaluate_eq
  · refine (((isWord_number n).reads (by decide)).minus).mono ?_
    rintro _ ⟨t, _, rfl, hk, ht, t', rfl, hk', ht'⟩
    exact ht ▸ .unary (by rw [hk]; decide) (ht' ▸ .number hk')

/-- Integers of 64 bits have few digits. -/
theorem digitCount_le {n : Nat} (h : n ≤ 2 ^ 63) :
    Decimal.digitCount n ≤ Number.maxDigits := by
  have hlt : n < 10 ^ 20 := Nat.lt_of_le_of_lt h (by decide)
  calc Decimal.digitCount n
      ≤ 20 := (Nat.length_toDigits_le_iff (by decide) (by decide)).2 hlt
    _ ≤ Number.maxDigits := by decide

theorem readsAs_toString {n : Int} (h : InRange n) :
    ReadsAs (toString n) (.int (.ofInt n)) := by
  cases n with
  | ofNat n => exact readsAs_natural (digitCount_le (Nat.le_of_lt (inRange_natCast_iff.1 h)))
  | negSucc n => exact readsAs_negated (digitCount_le (inRange_negSucc_iff.1 h))

/-- Integer results keep to 64 bits although not all operators wrap, and their text is read back as
their value, by itself and as an operand of another expression. -/
theorem evaluate_int_closed :
    (∀ node, Wide.evaluate node = (evaluate node).map Wide.ofValue) ∧
    (∀ node n, Wide.evaluate node = .ok (.int n) → InRange n) ∧
    (∀ n, InRange n → ∃ k : Int64, k.toInt = n ∧ ReadsAs (toString n) (.int k) ∧
      (ofExpression (toString n)).map text = .ok (toString n)) := by
  refine ⟨Wide.evaluate_eq, fun node n h => ?_, fun n h => ?_⟩
  · rw [Wide.evaluate_eq] at h
    cases hvalue : evaluate node with
    | error e =>
      rw [hvalue] at h
      cases h
    | ok v =>
      rw [hvalue] at h
      cases v with
      | int k =>
        cases h
        exact inRange_toInt k
      | double x => cases h
      | string s => cases h
  · have hexact : (Int64.ofInt n).toInt = n := toInt_ofInt_of_inRange h
    refine ⟨.ofInt n, hexact, readsAs_toString h, ?_⟩
    rw [(readsAs_toString h).ofExpression]
    show Except.ok (toString (Int64.ofInt n).toInt) = _
    rw [hexact]

/-- `~9223372036854775807` is the least integer; its text negates a literal that is out of range. -/
theorem evaluate_int_closed_least :
    let node : Node := ⟨.unary, some "~", [⟨.number, some "9223372036854775807", []⟩]⟩
    Wide.evaluate node = .ok (.int (-2 ^ 63)) ∧ InRange (-2 ^ 63) ∧
      (ofExpression "-9223372036854775808").map text = .ok "-9223372036854775808" := by
  intro node
  obtain ⟨hwide, hrange, hread⟩ := evaluate_int_closed
  have hgreatest : Number.Written "9223372036854775807" 9223372036854775807 :=
    .unsigned (show Number.IsNumeral "9223372036854775807".toList by decide) rfl
  have hnot : exactUnary? "~" = some Int.lnot := rfl
  have hvalue : Wide.evaluate node = .ok (.int (-2 ^ 63)) := by
    rw [hwide, (Exact.unary hnot (.number hgreatest)).evaluate_eq]
    rfl
  have hleast := hrange node _ hvalue
  obtain ⟨k, -, -, htext⟩ := hread _ hleast
  exact ⟨hvalue, hleast, htext⟩

end Value

end Tickle
