import Tickle.Format.Directive
import Tickle.Format.Real

/-!
Filling in format strings. Arguments are first brought into the form that their conversions ask
for; then every directive takes the next one.
-/

namespace Tickle.Format

/-- An argument in the form that its conversion asks for. -/
inductive Argument where
  | text (s : String)
  | integer (n : Int)
  | real (x : Float)
  | character (c : Char)

def Argument.read? (family : Family) (text : String) : Option Argument :=
  match family with
  | .text => some (.text text)
  | .integer => (Number.readInt? text).map .integer
  | .real => (Number.Numeral.read? text).map (.real ·.toDouble)
  | .character =>
    match text.toList with
    | [c] => some (.character c)
    | _ => none

def digitsIn (base n : Nat) : List Char := Nat.toDigits base n

/-- Base of an integer conversion and the mark of its alternate form. -/
def baseOf (conversion : Char) : Nat × List Char :=
  if conversion = 'o' then (8, ['0', 'o'])
  else if conversion = 'x' ∨ conversion = 'X' then (16, ['0', 'x'])
  else (10, [])

/-- A number before it is padded: its sign, the mark of its base and its digits. -/
structure Numeric where
  negative : Bool
  mark : List Char
  digits : List Char

/-- An integer; the precision is the least number of digits. -/
def Directive.integer (d : Directive) (n : Int) : Numeric :=
  let (base, mark) := baseOf d.conversion
  let digits := digitsIn base n.natAbs
  let digits := List.replicate (d.precision.getD 0 - digits.length) '0' ++ digits
  let mark := if d.alternate then mark else []
  if d.conversion = 'X' then ⟨n < 0, mark.map Char.toUpper, digits.map Char.toUpper⟩
  else ⟨n < 0, mark, digits⟩

/-- A double; six places or digits unless the precision says otherwise. -/
def Directive.real (d : Directive) (x : Float) : Numeric :=
  let style := if d.conversion = 'f' then RealStyle.fixed
    else if d.conversion = 'e' ∨ d.conversion = 'E' then .exponent else .general
  let text := realText style d.alternate (d.precision.getD 6) x
  let text := if d.conversion.isUpper then text.map Char.toUpper else text
  match text with
  | '-' :: digits => ⟨true, [], digits⟩
  | digits => ⟨false, [], digits⟩

/-- Pads a number to the width: zeros go between its mark and its digits, unless it stands left;
spaces go in front of the sign, or to the right if it stands left. -/
def Directive.padNumber (d : Directive) (n : Numeric) : List Char :=
  let sign := if n.negative then ['-'] else if d.plus then ['+'] else if d.space then [' '] else []
  let body := sign ++ n.mark ++ n.digits
  let missing := d.width.getD 0 - body.length
  if d.left then body ++ List.replicate missing ' '
  else if d.zero then sign ++ n.mark ++ List.replicate missing '0' ++ n.digits
  else List.replicate missing ' ' ++ body

def Directive.padText (d : Directive) (cs : List Char) : List Char :=
  let missing := List.replicate (d.width.getD 0 - cs.length) ' '
  if d.left then cs ++ missing else missing ++ cs

/-- What a directive makes of its argument; the precision cuts text. -/
def Directive.apply? (d : Directive) (argument : Argument) : Option (List Char) :=
  match family? d.conversion, argument with
  | some .text, .text s =>
    some (d.padText (match d.precision with | some n => s.toList.take n | none => s.toList))
  | some .integer, .integer n => some (d.padNumber (d.integer n))
  | some .real, .real x => some (d.padNumber (d.real x))
  | some .character, .character c => some (d.padText [c])
  | _, _ => none

/-- Why a format is not filled in. -/
inductive Refusal where
  | execution (fault : ExecutionFault)
  | precisionTooLarge

def Refusal.error (site : Node.Site) : Refusal → Error
  | execution fault => .execution fault (some site)
  | precisionTooLarge => .precisionTooLarge

/-- Fills in a format of `size` characters from where `cs` begins. -/
def fill (size : Nat) (cs : List Char) (arguments : List Argument) :
    Except Refusal (List Char) :=
  match cs with
  | [] => .ok []
  | c :: rest =>
    if c ≠ '%' then (fill size rest arguments).map (c :: ·)
    else
      match _h : Directive.read rest with
      | .error fault => .error (.execution (.illegalFormat fault))
      | .ok (directive, rest') =>
        if directive.conversion = '%' then (fill size rest' arguments).map ('%' :: ·)
        else
          match arguments with
          | [] => .error (.execution (.illegalFormat .tooFewArguments))
          | argument :: arguments =>
            if directive.asksTooMuch then .error .precisionTooLarge
            else
              match directive.apply? argument with
              | none =>
                .error (.execution (.illegalFormat
                  (.unsupportedCharacter directive.conversion (size - rest'.length - 1))))
              | some text => (fill size rest' arguments).map (text ++ ·)
termination_by cs.length
decreasing_by
  · simp
  · exact Nat.lt_succ_of_lt (Directive.length_read_lt _h)
  · exact Nat.lt_succ_of_lt (Directive.length_read_lt _h)

def readArguments : List Char → List String → Except Refusal (List Argument)
  | [], _ => .ok []
  | conversion :: conversions, text :: texts =>
    match (family? conversion).bind (Argument.read? · text) with
    | some argument => (readArguments conversions texts).map (argument :: ·)
    | none => .error (.execution (.formatterMismatch conversion))
  | _ :: _, [] => .error (.execution .tooManyFormatters)

/-- Formats arguments. Conversions are checked first, then the number of arguments, then each of
them; arguments that no conversion takes are ignored. -/
def format (text : String) (arguments : List String) : Except Refusal String := do
  let conversions := conversions text.toList
  match conversions.find? fun c => (family? c).isNone with
  | some c => throw (.execution (.unsupportedFormatter c))
  | none =>
    if arguments.length < conversions.length then throw (.execution .tooManyFormatters)
    let arguments ← readArguments conversions arguments
    return String.ofList (← fill text.toList.length text.toList arguments)

end Tickle.Format
