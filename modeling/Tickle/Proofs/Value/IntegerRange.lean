import Tickle.Proofs.Value.Division

/-! # Integers stay within 64 bits

Sums, differences, products, quotients, negations and shifts to the left are wrapped. Remainders,
shifts to the right and operators on bits need not be: out of integers of 64 bits they make integers
of 64 bits. To say so, trees are evaluated over integers of any size that are wrapped only where the
first list says; the values are the same. -/

namespace Tickle

/-! ## Operators that need no wrapping -/

/-- Integers of 64 bits. -/
def InRange (n : Int) : Prop := -2 ^ 63 ≤ n ∧ n < 2 ^ 63

theorem inRange_toInt (a : Int64) : InRange a.toInt := ⟨a.le_toInt, a.toInt_lt⟩

theorem toInt_ofInt_of_inRange {n : Int} (h : InRange n) : (Int64.ofInt n).toInt = n :=
  Int64.toInt_ofInt_of_le h.1 h.2

theorem inRange_natCast_iff {n : Nat} : InRange n ↔ n < 2 ^ 63 := by
  simp only [InRange]
  omega

theorem inRange_negSucc_iff {n : Nat} : InRange (Int.negSucc n) ↔ n < 2 ^ 63 := by
  simp only [InRange, Int.negSucc_eq]
  omega

theorem InRange.lnot {m : Int} (hm : InRange m) : InRange m.lnot := by
  cases m with
  | ofNat m => exact inRange_negSucc_iff.2 (inRange_natCast_iff.1 hm)
  | negSucc m => exact inRange_natCast_iff.2 (inRange_negSucc_iff.1 hm)

section Bits

variable {m n : Int} (hm : InRange m) (hn : InRange n)
include hm hn

theorem InRange.land : InRange (m.land n) := by
  cases m <;> cases n <;>
    simp only [Int.land, Int.ofNat_eq_natCast, inRange_natCast_iff, inRange_negSucc_iff] at *
  · exact Nat.and_lt_two_pow _ hn
  · exact Nat.bitwise_lt_two_pow hm hn
  · exact Nat.bitwise_lt_two_pow hn hm
  · exact Nat.or_lt_two_pow hm hn

theorem InRange.lor : InRange (m.lor n) := by
  cases m <;> cases n <;>
    simp only [Int.lor, Int.ofNat_eq_natCast, inRange_natCast_iff, inRange_negSucc_iff] at *
  · exact Nat.or_lt_two_pow hm hn
  · exact Nat.bitwise_lt_two_pow hn hm
  · exact Nat.bitwise_lt_two_pow hm hn
  · exact Nat.and_lt_two_pow _ hn

theorem InRange.xor : InRange (m.xor n) := by
  cases m <;> cases n <;>
    simp only [Int.xor, Int.ofNat_eq_natCast, inRange_natCast_iff, inRange_negSucc_iff] at *
  all_goals exact Nat.xor_lt_two_pow hm hn

end Bits

/-- Wrapping leaves an integer in range as it is. -/
theorem toInt_eq_of_ofInt_eq {n : Int} {k : Int64} (hn : InRange n) (h : Int64.ofInt n = k) :
    k.toInt = n := by
  rw [← h, toInt_ofInt_of_inRange hn]

theorem toInt_lnot (a : Int64) : (~~~a).toInt = a.toInt.lnot := by
  refine toInt_eq_of_ofInt_eq (inRange_toInt a).lnot ?_
  rw [ofInt_lnot, Int64.ofInt_toInt]

section Operands

variable (a b : Int64)

theorem toInt_land : (a &&& b).toInt = a.toInt.land b.toInt := by
  refine toInt_eq_of_ofInt_eq ((inRange_toInt a).land (inRange_toInt b)) ?_
  rw [ofInt_land, Int64.ofInt_toInt, Int64.ofInt_toInt]

theorem toInt_lor : (a ||| b).toInt = a.toInt.lor b.toInt := by
  refine toInt_eq_of_ofInt_eq ((inRange_toInt a).lor (inRange_toInt b)) ?_
  rw [ofInt_lor, Int64.ofInt_toInt, Int64.ofInt_toInt]

theorem toInt_xor : (a ^^^ b).toInt = a.toInt.xor b.toInt := by
  refine toInt_eq_of_ofInt_eq ((inRange_toInt a).xor (inRange_toInt b)) ?_
  rw [ofInt_xor, Int64.ofInt_toInt, Int64.ofInt_toInt]

theorem toInt_shiftLeft :
    (a <<< b).toInt = (a.toInt * 2 ^ (b.toInt % 64).toNat).bmod (2 ^ 64) := by
  have h := ofInt_shiftLeft a.toInt b.toInt
  rw [Int64.ofInt_toInt, Int64.ofInt_toInt] at h
  rw [← h, Int64.toInt_ofInt]
  rfl

/-- A shift to the right only drops bits. -/
theorem toInt_shiftRight : (a >>> b).toInt = a.toInt >>> (b.toInt % 64).toNat := by
  have hcount := toNat_smod_ofInt b.toInt
  rw [← Int64.toBitVec_ofInt, Int64.ofInt_toInt] at hcount
  rw [← Int64.toInt_toBitVec, Int64.toBitVec_shiftRight, BitVec.sshiftRight_eq', hcount,
    BitVec.toInt_sshiftRight, Int64.toInt_toBitVec]

end Operands

/-! ## Values with integers of any size -/

/-- A value whose integers may have any size. -/
inductive Wide where
  | int (n : Int)
  | double (x : Float)
  | string (s : String)

namespace Wide

def ofValue : Value → Wide
  | .int n => int n.toInt
  | .double x => double x
  | .string s => string s

/-- The value as operators see it that make no integers out of integers. -/
def toValue : Wide → Value
  | int n => .int (.ofInt n)
  | double x => .double x
  | string s => .string s

@[simp] theorem toValue_ofValue (v : Value) : (ofValue v).toValue = v := by
  cases v with
  | int a => exact congrArg Value.int a.ofInt_toInt
  | double x => rfl
  | string s => rfl

def truth : Wide → Bool
  | int n => n ≠ 0
  | double x => x != 0
  | string _ => true

theorem truth_ofValue (v : Value) : (ofValue v).truth = v.truth := by
  cases v with
  | int a =>
    have hzero : a.toInt = 0 ↔ a = 0 := Int64.toInt_inj (y := 0)
    simp [ofValue, truth, Value.truth, hzero]
  | double x => rfl
  | string s => rfl

/-- Operators that make an integer of an integer; only a negation is wrapped. -/
def unary? : String → Option (Int → Int)
  | "+" => some fun m => m
  | "-" => some fun m => (-m).bmod (2 ^ 64)
  | "~" => some Int.lnot
  | "!" => some fun m => if m = 0 then 1 else 0
  | _ => none

/-- Operators that make an integer of two; remainders, shifts to the right and the operators on bits
are not wrapped. A shift count is taken modulo 64. -/
def binary? : String → Option (Int → Int → Int)
  | "+" => some fun m n => (m + n).bmod (2 ^ 64)
  | "-" => some fun m n => (m - n).bmod (2 ^ 64)
  | "*" => some fun m n => (m * n).bmod (2 ^ 64)
  | "/" => some fun m n => (m.tdiv n).bmod (2 ^ 64)
  | "%" => some fun m n => m - n * m.tdiv n
  | "<<" => some fun m n => (m * 2 ^ (n % 64).toNat).bmod (2 ^ 64)
  | ">>" => some fun m n => m >>> (n % 64).toNat
  | "&" => some Int.land
  | "^" => some Int.xor
  | "|" => some Int.lor
  | _ => none

/-- Applies the operator of a node in front of its operand. -/
def unary (node : Node) (a : Wide) : Except Error Wide :=
  match a, node.text.bind unary? with
  | int m, some f => .ok (int (f m))
  | a, _ => (Value.unary node a.toValue).map ofValue

/-- Applies the operator of a node between its operands. -/
def binary (node : Node) (a b : Wide) : Except Error Wide :=
  match a, b, node.text.bind binary? with
  | int m, int n, some f =>
    if n = 0 ∧ (node.text = some "/" ∨ node.text = some "%") then
      .error (.execution .divideByZero node.site)
    else .ok (int (f m n))
  | a, b, _ => (Value.binary node a.toValue b.toValue).map ofValue

/-- Value of an expression tree in integers of any size. -/
def evaluate : Node → Except Error Wide
  | ⟨.unary, text, operand :: more⟩ => do
    unary ⟨.unary, text, operand :: more⟩ (← evaluate operand)
  | ⟨.binary, text, left :: right :: more⟩ => do
    let a ← evaluate left
    let b ← evaluate right
    binary ⟨.binary, text, left :: right :: more⟩ a b
  | ⟨.ternary, text, condition :: yes :: more⟩ => do
    let a ← evaluate condition
    if !a.toValue.isNumeric then throw (.execution .ternaryCondition (some ⟨.ternary, text⟩))
    else if a.truth then evaluate yes
    else
      match more with
      | [] => throw .operandMissing
      | no :: _ => evaluate no
  | ⟨.call, text, argument :: more⟩ => do
    (Value.call ⟨.call, text, argument :: more⟩ (← evaluate argument).toValue).map ofValue
  | node => (Value.evaluate node).map ofValue

theorem unary_exact {op : String} {f : Int → Int} (h : unary? op = some f) (kind : Node.Kind)
    (children : List Node) (a : Int64) :
    ∃ k : Int64, Value.unary ⟨kind, some op, children⟩ (.int a) = .ok (.int k) ∧
      k.toInt = f a.toInt := by
  unfold unary? at h
  split at h <;> cases h
  · exact ⟨a, rfl, rfl⟩
  · exact ⟨-a, rfl, a.toInt_neg⟩
  · exact ⟨~~~a, rfl, toInt_lnot a⟩
  · have hzero : a.toInt = 0 ↔ a = 0 := Int64.toInt_inj (y := 0)
    refine ⟨if decide (a = 0) then 1 else 0, rfl, ?_⟩
    by_cases ha : a = 0 <;> simp [ha, hzero]

theorem binary_exact {op : String} {f : Int → Int → Int} (h : binary? op = some f)
    (kind : Node.Kind) (children : List Node) (a b : Int64) (hb : b = 0 → op ≠ "/" ∧ op ≠ "%") :
    ∃ k : Int64, Value.binary ⟨kind, some op, children⟩ (.int a) (.int b) = .ok (.int k) ∧
      k.toInt = f a.toInt b.toInt := by
  unfold binary? at h
  split at h <;> cases h
  · exact ⟨a + b, rfl, a.toInt_add b⟩
  · exact ⟨a - b, rfl, a.toInt_sub b⟩
  · exact ⟨a * b, rfl, a.toInt_mul b⟩
  · have hne : b ≠ 0 := fun hzero => (hb hzero).1 rfl
    exact ⟨a / b, (Value.binary_quotient kind children a b).trans (if_neg hne), a.toInt_div b⟩
  · have hne : b ≠ 0 := fun hzero => (hb hzero).2 rfl
    exact ⟨a % b, (Value.binary_remainder kind children a b).trans (if_neg hne),
      (a.toInt_mod b).trans (Int.tmod_def _ _)⟩
  · exact ⟨a <<< b, rfl, toInt_shiftLeft a b⟩
  · exact ⟨a >>> b, rfl, toInt_shiftRight a b⟩
  · exact ⟨a &&& b, rfl, toInt_land a b⟩
  · exact ⟨a ^^^ b, rfl, toInt_xor a b⟩
  · exact ⟨a ||| b, rfl, toInt_lor a b⟩

theorem unary_ofValue (node : Node) (v : Value) :
    unary node (ofValue v) = (Value.unary node v).map ofValue := by
  cases v with
  | double x => rfl
  | string s => rfl
  | int a =>
    obtain ⟨kind, text, children⟩ := node
    cases h : text.bind unary? with
    | none =>
      simp only [unary, ofValue, h, toValue, Int64.ofInt_toInt]
    | some f =>
      obtain ⟨op, rfl, hop⟩ := Option.bind_eq_some_iff.1 h
      obtain ⟨k, hk, hexact⟩ := unary_exact hop kind children a
      simp only [unary, ofValue, h, hk, Except.map, hexact]

theorem binary_divideByZero {text : Option String} (h : text = some "/" ∨ text = some "%")
    (kind : Node.Kind) (children : List Node) (a : Int64) :
    Value.binary ⟨kind, text, children⟩ (.int a) (.int 0) =
      .error (.execution .divideByZero (some ⟨kind, text⟩)) := by
  rcases h with rfl | rfl
  · exact (Value.binary_quotient kind children a 0).trans (if_pos rfl)
  · exact (Value.binary_remainder kind children a 0).trans (if_pos rfl)

theorem binary_ofValue_int (node : Node) (a b : Int64) :
    binary node (int a.toInt) (int b.toInt) =
      (Value.binary node (.int a) (.int b)).map ofValue := by
  obtain ⟨kind, text, children⟩ := node
  have hzero : b.toInt = 0 ↔ b = 0 := Int64.toInt_inj (y := 0)
  cases h : text.bind binary? with
  | none => simp only [binary, h, toValue, Int64.ofInt_toInt]
  | some f =>
    simp only [binary, h]
    split
    · rename_i hdivides
      rw [hzero.1 hdivides.1, binary_divideByZero hdivides.2]
      rfl
    · rename_i hfits
      obtain ⟨op, rfl, hop⟩ := Option.bind_eq_some_iff.1 h
      have hb : b = 0 → op ≠ "/" ∧ op ≠ "%" := by simpa [hzero] using hfits
      obtain ⟨k, hk, hexact⟩ := binary_exact hop kind children a b hb
      simp only [hk, Except.map, ofValue, hexact]

theorem binary_ofValue (node : Node) (v w : Value) :
    binary node (ofValue v) (ofValue w) = (Value.binary node v w).map ofValue := by
  cases v with
  | int a =>
    cases w with
    | int b => exact binary_ofValue_int node a b
    | double y => simp only [binary, ofValue, toValue, Int64.ofInt_toInt]
    | string t => simp only [binary, ofValue, toValue, Int64.ofInt_toInt]
  | double x =>
    rw [binary, toValue_ofValue, toValue_ofValue]
    intro m n f hx
    cases hx
  | string s =>
    rw [binary, toValue_ofValue, toValue_ofValue]
    intro m n f hx
    cases hx

/-- What a conditional gives once its condition has a value. -/
theorem choose_map (text : Option String) (v : Value) (yes no : Except Error Value) :
    (if !v.isNumeric then .error (.execution .ternaryCondition (some ⟨.ternary, text⟩))
      else if (ofValue v).truth then yes.map ofValue else no.map ofValue) =
      (Value.choose text v yes no).map ofValue := by
  rw [truth_ofValue, Value.choose]
  split
  · rfl
  · split <;> rfl

/-- Evaluation over integers of any size gives the same values. -/
theorem evaluate_eq (node : Node) : evaluate node = (Value.evaluate node).map ofValue := by
  fun_induction evaluate node with
  | case1 text operand more ih =>
    rw [Value.evaluate_unary, ih]
    cases Value.evaluate operand with
    | error e => rfl
    | ok v => exact unary_ofValue _ v
  | case2 text left right more ihl ihr =>
    rw [Value.evaluate_binary, ihl]
    cases Value.evaluate left with
    | error e => rfl
    | ok v =>
      rw [ihr]
      cases Value.evaluate right with
      | error e => rfl
      | ok w => exact binary_ofValue _ v w
  | case3 text condition yes more ih ihYes ihNo =>
    -- a tree without its last operand fails only once it is needed
    cases more with
    | nil =>
      rw [Value.evaluate_ternary_of_two, ih]
      cases Value.evaluate condition with
      | error e => rfl
      | ok v =>
        show (if !(ofValue v).toValue.isNumeric then _ else _) = _
        rw [toValue_ofValue, ihYes]
        exact choose_map text v (Value.evaluate yes) (.error .operandMissing)
    | cons no more =>
      rw [Value.evaluate_ternary, ih]
      cases Value.evaluate condition with
      | error e => rfl
      | ok v =>
        have hno : evaluate no = (Value.evaluate no).map ofValue := ihNo
        show (if !(ofValue v).toValue.isNumeric then _ else
          if (ofValue v).truth then evaluate yes else evaluate no) = _
        rw [toValue_ofValue, ihYes, hno]
        exact choose_map text v (Value.evaluate yes) (Value.evaluate no)
  | case4 text argument more ih =>
    rw [Value.evaluate_call, ih]
    cases Value.evaluate argument with
    | error e => rfl
    | ok v =>
      show (Value.call _ (ofValue v).toValue).map ofValue = _
      rw [toValue_ofValue]
      rfl
  | case5 => rfl

end Wide

end Tickle
