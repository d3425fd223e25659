import Tickle.Value.Operators

/-!
Functions of expressions. Most take a double and give a double; those that go to the integers fail
on infinities and NaN, and the others fail where a finite argument has no finite result.
-/

namespace Tickle.Value

/-- The integer that `round` makes of a finite double. -/
def toInteger (round : Bool → Nat → Int → Int) (x : Float) : Except MathFault Int :=
  match Number.Binary64.decode x with
  | .nan => .error .nanToInteger
  | .infinite _ => .error .infiniteToInteger
  | .finite negative mantissa power => .ok (round negative mantissa power)

def integral? (name : String) : Option (Float → Except MathFault Int) :=
  match name with
  | "round" => some fun x => toInteger Number.Binary64.floor (x + 0.5)
  | "int" | "wide" | "entier" => some (toInteger Number.Binary64.truncate)
  | _ => none

/-- A function with its failures: a NaN out of a number is outside the domain, an infinity out of a
finite number is too large (`grows`) or outside the domain. -/
def checked (grows : Bool) (f : Float → Float) (x : Float) : Except MathFault Float :=
  let r := f x
  if r.isNaN && !x.isNaN then .error .domain
  else if r.isInf && x.isFinite then .error (if grows then .range else .domain)
  else .ok r

def real? (name : String) : Option (Float → Except MathFault Float) :=
  match name with
  | "sin" => some (checked false Float.sin)
  | "cos" => some (checked false Float.cos)
  | "tan" => some (checked false Float.tan)
  | "asin" => some (checked false Float.asin)
  | "acos" => some (checked false Float.acos)
  | "atan" => some (checked false Float.atan)
  | "sinh" => some (checked true Float.sinh)
  | "cosh" => some (checked true Float.cosh)
  | "tanh" => some (checked false Float.tanh)
  | "sqrt" => some (checked false Float.sqrt)
  | "exp" => some (checked true Float.exp)
  | "log" => some (checked false Float.log)
  | "log10" => some (checked false Float.log10)
  | "floor" => some fun x => (toInteger Number.Binary64.floor x).map doubleOfInt
  | "ceil" => some fun x => (toInteger Number.Binary64.ceil x).map doubleOfInt
  | "abs" => some fun x => .ok x.abs
  | _ => none

def call (node : Node) (argument : Value) : Except Error Value :=
  let name := node.value
  let fail (fault : ExecutionFault) : Except Error Value := .error (.execution fault node.site)
  if name = "double" then
    match argument with
    | .int n => .ok (.double (doubleOfInt n.toInt))
    | _ => fail (.functionNeedsInteger name)
  else
    match integral? name, real? name with
    | some f, _ =>
      if !argument.isNumeric then fail (.functionNeedsNumber name)
      else
        match f argument.toDouble with
        | .ok n => .ok (.int (Int64.ofInt n))
        | .error fault => fail (.functionFailed name fault)
    | none, some f =>
      if !argument.isNumeric then fail (.functionNeedsNumber name)
      else
        match f argument.toDouble with
        | .ok x => .ok (.double x)
        | .error fault => fail (.functionFailed name fault)
    | none, none => fail (.unknownFunction name)

end Tickle.Value
