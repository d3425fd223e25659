import Tickle.Error
import Tickle.ListText
import Tickle.Value.Basic

/-!
Operators of expressions. Integer arithmetic wraps at 64 bits; an operation with a double is done in
doubles. The remainder has the sign of the dividend, shifts take their count modulo 64.
-/

namespace Tickle.Value

def unary (node : Node) (operand : Value) : Except Error Value :=
  let op := node.text.getD "None"
  let fail (fault : ExecutionFault) : Except Error Value := .error (.execution fault node.site)
  if op = "~" then
    match operand with
    | .int n => .ok (.int (~~~n))
    | _ => fail (.integersOnly op)
  else
    match operand with
    | .string _ => fail (.numbersOnly op)
    | .int n =>
      if op = "+" then .ok (.int n)
      else if op = "-" then .ok (.int (-n))
      else if op = "!" then .ok (ofBool (n = 0))
      else fail (.unknownOperator op)
    | .double x =>
      if op = "+" then .ok (.double x)
      else if op = "-" then .ok (.double (-x))
      else if op = "!" then .ok (ofBool !(Value.double x).truth)
      else fail (.unknownOperator op)

def integerOperators : List String := ["%", "<<", ">>", "&", "^", "|"]

def comparisons : List String := ["<", ">", "<=", ">="]

/-- Logical operators; both operands are evaluated. -/
def connectives : List String := ["&&", "||"]

/-- Arithmetic for integers and doubles. -/
def arithmeticOperators : List String := ["-", "*", "/", "**"]

def integer (node : Node) (op : String) (a b : Int64) : Except Error Value :=
  if op = "%" then
    if b = 0 then .error (.execution .divideByZero node.site) else .ok (.int (a % b))
  else if op = "<<" then .ok (.int (a <<< b))
  else if op = ">>" then .ok (.int (a >>> b))
  else if op = "&" then .ok (.int (a &&& b))
  else if op = "^" then .ok (.int (a ^^^ b))
  else .ok (.int (a ||| b))

/-- A comparison by exact value; nothing compares with a NaN. -/
def compares (op : String) (a b : Value) : Bool :=
  match order? a b with
  | none => false
  | some order =>
    if op = "<" then order = .lt
    else if op = ">" then order = .gt
    else if op = "<=" then order ≠ .gt
    else order ≠ .lt

def toDouble : Value → Float
  | int n => doubleOfInt n.toInt
  | double x => x
  | string _ => 0

/-- A power of doubles. A finite base and exponent must have a finite result. -/
def power (x y : Float) : Except MathFault Float :=
  let r := Float.pow x y
  if x.isFinite && y.isFinite then
    if r.isNaN then .error .domain
    else if r.isInf then .error (if x == 0 then .domain else .range)
    else .ok r
  else .ok r

def arithmetic (node : Node) (op : String) (a b : Value) : Except Error Value :=
  if op = "**" then
    match power a.toDouble b.toDouble with
    | .ok r => .ok (.double r)
    | .error fault => .error (.execution (.powerFailed fault) node.site)
  else if op = "/" ∧ b.truth = false then .error (.execution .divideByZero node.site)
  else
    match a, b with
    | .int a, .int b =>
      if op = "+" then .ok (.int (a + b))
      else if op = "-" then .ok (.int (a - b))
      else if op = "*" then .ok (.int (a * b))
      else .ok (.int (a / b))
    | a, b =>
      let x := a.toDouble
      let y := b.toDouble
      if op = "+" then .ok (.double (x + y))
      else if op = "-" then .ok (.double (x - y))
      else if op = "*" then .ok (.double (x * y))
      else .ok (.double (x / y))

def binary (node : Node) (a b : Value) : Except Error Value :=
  let op := node.value
  let fail (fault : ExecutionFault) : Except Error Value := .error (.execution fault node.site)
  if op = "eq" ∨ op = "==" then .ok (ofBool (equals a b))
  else if op = "ne" ∨ op = "!=" then .ok (ofBool !(equals a b))
  else if op = "in" then .ok (ofBool ((ListText.parse b.text).contains a.text))
  else if op = "ni" then .ok (ofBool !((ListText.parse b.text).contains a.text))
  else if op = "+" then
    if a.isNumeric && b.isNumeric then arithmetic node op a b
    else .ok (.string (a.text ++ b.text))
  else if op ∈ integerOperators then
    match a, b with
    | .int a, .int b => integer node op a b
    | _, _ => fail (.integersOnly op)
  else if op ∈ connectives then
    if !(a.isNumeric && b.isNumeric) then fail (.numbersOnly op)
    else .ok (ofBool (if op = "&&" then a.truth && b.truth else a.truth || b.truth))
  else if op ∈ comparisons then
    if !(a.isNumeric && b.isNumeric) then fail (.numbersOnly op)
    else .ok (ofBool (compares op a b))
  else if op ∈ arithmeticOperators then
    if !(a.isNumeric && b.isNumeric) then fail (.numbersOnly op) else arithmetic node op a b
  else fail (.unknownOperator op)

end Tickle.Value
