import Mathlib.Data.Int.Bitwise
import Tickle.Proofs.Number.DecimalIntegers
import Tickle.Value.Evaluate

/-! # Wrapping once

Operators that wrap their result at each step give what the exact integers give when they are
wrapped at the end: to keep the low 64 bits of an integer is a homomorphism for the ring operations
and for the operators on bits; and a shift count is the same modulo 64 before and after. -/

namespace Tickle

/-! ## The low bits of an integer -/

/-- Wrapping keeps the low bits of an integer in two's complement. -/
theorem getLsbD_ofInt {w i : Nat} (hi : i < w) (n : Int) :
    (BitVec.ofInt w n).getLsbD i = n.testBit i := by
  cases n with
  | ofNat n =>
    rw [Int.ofNat_eq_natCast, BitVec.ofInt_natCast, BitVec.getLsbD_ofNat, decide_eq_true hi,
      Bool.true_and]
    rfl
  | negSucc n =>
    rw [BitVec.ofInt_negSucc_eq_not_ofNat, BitVec.getLsbD_not, BitVec.getLsbD_ofNat,
      decide_eq_true hi, Bool.true_and, Bool.true_and]
    rfl

/-- The wrapped integer is known by its low bits. -/
theorem ofInt_eq_of_testBit {n : Int} {k : Int64}
    (h : ∀ i < 64, n.testBit i = k.toBitVec.getLsbD i) : Int64.ofInt n = k := by
  rw [← Int64.toBitVec_inj, Int64.toBitVec_ofInt]
  exact BitVec.eq_of_getLsbD_eq fun i hi => (getLsbD_ofInt hi n).trans (h i hi)

theorem ofInt_lnot (m : Int) : Int64.ofInt m.lnot = ~~~Int64.ofInt m := by
  refine ofInt_eq_of_testBit fun i hi => ?_
  rw [Int.testBit_lnot, Int64.toBitVec_not, Int64.toBitVec_ofInt, BitVec.getLsbD_not,
    getLsbD_ofInt hi, decide_eq_true hi, Bool.true_and]

theorem ofInt_land (m n : Int) : Int64.ofInt (m.land n) = Int64.ofInt m &&& Int64.ofInt n := by
  refine ofInt_eq_of_testBit fun i hi => ?_
  rw [Int.testBit_land, Int64.toBitVec_and, BitVec.getLsbD_and]
  simp only [Int64.toBitVec_ofInt, getLsbD_ofInt hi]

theorem ofInt_lor (m n : Int) : Int64.ofInt (m.lor n) = Int64.ofInt m ||| Int64.ofInt n := by
  refine ofInt_eq_of_testBit fun i hi => ?_
  rw [Int.testBit_lor, Int64.toBitVec_or, BitVec.getLsbD_or]
  simp only [Int64.toBitVec_ofInt, getLsbD_ofInt hi]

theorem ofInt_xor (m n : Int) : Int64.ofInt (m.xor n) = Int64.ofInt m ^^^ Int64.ofInt n := by
  refine ofInt_eq_of_testBit fun i hi => ?_
  rw [Int.testBit_lxor, Int64.toBitVec_xor, BitVec.getLsbD_xor]
  simp only [Int64.toBitVec_ofInt, getLsbD_ofInt hi]

/-- A shift count, also a negative one, is the same modulo 64 when it has been wrapped. -/
theorem toNat_smod_ofInt (n : Int) : ((BitVec.ofInt 64 n).smod 64).toNat = (n % 64).toNat := by
  have hcount : ((BitVec.ofInt 64 n).smod 64).toInt = n % 64 := by
    have hperiod : (64 : BitVec 64).toInt = 64 := rfl
    rw [BitVec.toInt_smod, BitVec.toInt_ofInt, hperiod, Int.fmod_eq_emod_of_nonneg _ (by omega),
      Int.bmod_def]
    split <;> omega
  rw [← BitVec.ofInt_toInt (x := (BitVec.ofInt 64 n).smod 64), hcount, BitVec.toNat_ofInt]
  omega

theorem ofInt_shiftLeft (m n : Int) :
    Int64.ofInt (m * 2 ^ (n % 64).toNat) = Int64.ofInt m <<< Int64.ofInt n := by
  have htwoPow (k : Nat) : BitVec.ofInt 64 (2 ^ k) = BitVec.twoPow 64 k := by
    refine BitVec.eq_of_toNat_eq ?_
    rw [BitVec.toNat_twoPow, ← BitVec.toNat_ofNat, ← BitVec.ofInt_natCast]
    norm_cast
  rw [← Int64.toBitVec_inj, Int64.toBitVec_shiftLeft]
  simp only [Int64.toBitVec_ofInt]
  rw [BitVec.shiftLeft_eq', toNat_smod_ofInt, BitVec.shiftLeft_eq_mul_twoPow, BitVec.ofInt_mul,
    htwoPow]

namespace Value

/-! ## Exact integers -/

/-- Operators in front of an operand, and what they mean for integers of any size. -/
def exactUnary? : String → Option (Int → Int)
  | "+" => some fun m => m
  | "-" => some fun m => -m
  | "~" => some Int.lnot
  | _ => none

/-- Operators between operands, and what they mean for integers of any size: those on bits are in
two's complement, and a shift count is taken modulo 64. -/
def exactBinary? : String → Option (Int → Int → Int)
  | "+" => some fun m n => m + n
  | "-" => some fun m n => m - n
  | "*" => some fun m n => m * n
  | "&" => some Int.land
  | "^" => some Int.xor
  | "|" => some Int.lor
  | "<<" => some fun m n => m * 2 ^ (n % 64).toNat
  | _ => none

/-- Trees of these operators over decimal integers, with their value in the integers of any size. -/
inductive Exact : Node → Int → Prop
  | number {text : String} {n : Int} : Number.Written text n → Exact ⟨.number, some text, []⟩ n
  | unary {op : String} {f : Int → Int} {operand : Node} {m : Int} : exactUnary? op = some f →
    Exact operand m → Exact ⟨.unary, some op, [operand]⟩ (f m)
  | binary {op : String} {f : Int → Int → Int} {left right : Node} {m n : Int} :
    exactBinary? op = some f → Exact left m → Exact right n →
    Exact ⟨.binary, some op, [left, right]⟩ (f m n)

theorem unary_ofInt {op : String} {f : Int → Int} (h : exactUnary? op = some f)
    (children : List Node) (m : Int) :
    unary ⟨.unary, some op, children⟩ (.int (.ofInt m)) = .ok (.int (.ofInt (f m))) := by
  unfold exactUnary? at h
  split at h <;> cases h
  · rfl
  · rw [Int64.ofInt_neg]
    rfl
  · rw [ofInt_lnot]
    rfl

theorem binary_ofInt {op : String} {f : Int → Int → Int} (h : exactBinary? op = some f)
    (children : List Node) (m n : Int) :
    binary ⟨.binary, some op, children⟩ (.int (.ofInt m)) (.int (.ofInt n)) =
      .ok (.int (.ofInt (f m n))) := by
  unfold exactBinary? at h
  split at h <;> cases h
  · rw [Int64.ofInt_add]
    rfl
  · rw [Int64.ofInt_sub]
    rfl
  · rw [Int64.ofInt_mul]
    rfl
  · rw [ofInt_land]
    rfl
  · rw [ofInt_xor]
    rfl
  · rw [ofInt_lor]
    rfl
  · rw [ofInt_shiftLeft]
    rfl

/-- A tree is evaluated to its exact value, wrapped. -/
theorem Exact.evaluate_eq {node : Node} {n : Int} (h : Exact node n) :
    evaluate node = .ok (.int (.ofInt n)) := by
  induction h with
  | number hwritten =>
    rw [evaluate_number, Option.getD_some, ofText, hwritten.readInt?]
  | unary hop _ ih =>
    rw [evaluate_unary, ih]
    exact unary_ofInt hop _ _
  | binary hop _ _ ihleft ihright =>
    rw [evaluate_binary, ihleft, ihright]
    exact binary_ofInt hop _ _ _

/-- To wrap at every step is to wrap once: a tree is evaluated to the 64-bit integer that its exact
value leaves modulo 2 ^ 64. -/
theorem evaluate_wraps_once {node : Node} {n : Int} (h : Exact node n) :
    ∃ k : Int64, evaluate node = .ok (.int k) ∧ k.toInt = n.bmod (2 ^ 64) :=
  ⟨.ofInt n, h.evaluate_eq, Int64.toInt_ofInt⟩

/-- `~(-99999999999999999999 << -3) ^ ٣ * 18446744073709551617`: literals that are out of range, one
in the digits of another script, and a negative shift count. -/
theorem evaluate_wraps_once_negative_shift :
    let shifted : Node :=
      ⟨.binary, some "<<", [⟨.number, some "-99999999999999999999", []⟩,
        ⟨.unary, some "-", [⟨.number, some "3", []⟩]⟩]⟩
    let product : Node :=
      ⟨.binary, some "*", [⟨.number, some "٣", []⟩, ⟨.number, some "18446744073709551617", []⟩]⟩
    let node : Node := ⟨.binary, some "^", [⟨.unary, some "~", [shifted]⟩, product]⟩
    Exact node ((-99999999999999999999 * 2 ^ 61 : Int).lnot.xor (3 * 18446744073709551617)) ∧
      ∃ k : Int64, evaluate node = .ok (.int k) ∧ k.toInt = -2305843009213693956 := by
  intro shifted product node
  have hlarge : Number.Written "-99999999999999999999" (-99999999999999999999) :=
    .negative (show Number.IsNumeral "99999999999999999999".toList by decide) rfl
  have hthree : Number.Written "3" 3 := .unsigned (show Number.IsNumeral ['3'] by decide) rfl
  have hscript : Number.Written "٣" 3 := .unsigned (show Number.IsNumeral ['٣'] by decide) rfl
  have hround : Number.Written "18446744073709551617" 18446744073709551617 :=
    .unsigned (show Number.IsNumeral "18446744073709551617".toList by decide) rfl
  have hshift : exactBinary? "<<" = some fun m n => m * 2 ^ (n % 64).toNat := rfl
  have hminus : exactUnary? "-" = some fun m => -m := rfl
  have hnot : exactUnary? "~" = some Int.lnot := rfl
  have hxor : exactBinary? "^" = some Int.xor := rfl
  have htimes : exactBinary? "*" = some fun m n => m * n := rfl
  have hnode := Exact.binary hxor
    (.unary hnot (.binary hshift (.number hlarge) (.unary hminus (.number hthree))))
    (.binary htimes (.number hscript) (.number hround))
  exact ⟨hnode, evaluate_wraps_once hnode⟩

end Value

end Tickle
