import Tickle.Token.Basic
import Tickle.Tree.Node

/-!
Errors by cause. Each class of errors has its faults and says where it arose: parse errors name the
kinds of tokens found and expected, execution errors the node, command errors the command. The
wording of every message is in this module.
-/

namespace Tickle

inductive ParseFault where
  | commandNameExpected
  | commandNameNotSingle
  | unexpected
  | unexpectedInCommand
  | unexpectedInSubstitution
  | unexpectedInExpression
  | unexpectedEnd
  | missingColon
  | unterminatedString
  | custom (text : String)
  deriving Repr, DecidableEq

def ParseFault.message : ParseFault → String
  | commandNameExpected => "Command name expected"
  | commandNameNotSingle => "Command name must be a single word"
  | unexpected => "Unexpected token"
  | unexpectedInCommand => "Unexpected token in command"
  | unexpectedInSubstitution => "Unexpected token in substitution"
  | unexpectedInExpression => "Unexpected token in expression"
  | unexpectedEnd => "Unexpected end of expression"
  | missingColon => "Missing ':' in ternary operation"
  | unterminatedString => "Unterminated string in expression"
  | custom text => text

inductive ParenthesisFault where
  | tooManyClosing
  | tooManyOpening
  | custom (text : String)
  deriving Repr, DecidableEq

def ParenthesisFault.message : ParenthesisFault → String
  | tooManyClosing =>
    "The number of closing parentheses exceeds the number of opening parentheses"
  | tooManyOpening =>
    "The number of opening parentheses exceeds the number of closing parentheses"
  | custom text => text

/-- Why a mathematical function has no result. -/
inductive MathFault where
  | domain
  | range
  | infiniteToInteger
  | nanToInteger
  deriving Repr, DecidableEq

def MathFault.message : MathFault → String
  | domain => "math domain error"
  | range => "math range error"
  | infiniteToInteger => "cannot convert float infinity to integer"
  | nanToInteger => "cannot convert float NaN to integer"

inductive FormatFault where
  | incomplete
  | tooFewArguments
  | unsupportedCharacter (c : Char) (index : Nat)
  | widthTooBig
  | precisionTooBig
  deriving Repr, DecidableEq

def FormatFault.message : FormatFault → String
  | incomplete => "incomplete format"
  | tooFewArguments => "not enough arguments for format string"
  | unsupportedCharacter c index =>
    let shown := if 31 ≤ c.toNat && c.toNat ≤ 126 then c else '?'
    "unsupported format character '" ++ shown.toString ++ "' (0x"
      ++ String.ofList (Nat.toDigits 16 c.toNat) ++ ") at index " ++ toString index
  | widthTooBig => "width too big"
  | precisionTooBig => "precision too big"

/-- What goes wrong while a node is executed or evaluated. -/
inductive ExecutionFault where
  | undefinedCommand (name : String)
  | noSuchVariable (name : String)
  | notBoolean (value : String)
  | ternaryCondition
  | unexpectedNode
  | integersOnly (operator : String)
  | numbersOnly (operator : String)
  | unknownOperator (operator : String)
  | divideByZero
  | powerFailed (fault : MathFault)
  | functionNeedsInteger (function : String)
  | functionNeedsNumber (function : String)
  | functionFailed (function : String) (fault : MathFault)
  | unknownFunction (function : String)
  | listIndexNotInteger
  | listIndexOutside
  | stringIndexNotInteger
  | unknownSubcommand (name : String)
  | unsupportedFormatter (c : Char)
  | tooManyFormatters
  | formatterMismatch (c : Char)
  | illegalFormat (fault : FormatFault)
  | custom (text : String)
  deriving Repr, DecidableEq

def ExecutionFault.message : ExecutionFault → String
  | undefinedCommand name => "The command " ++ name ++ " is not defined!"
  | noSuchVariable name => "can't read \"" ++ name ++ "\": no such variable"
  | notBoolean value => "expected boolean value but got \"" ++ value ++ "\""
  | ternaryCondition => "The first argument of a ternary operation must be a number!"
  | unexpectedNode => "Unexpected node in expression"
  | integersOnly operator => "Operation " ++ operator ++ " is only applicable to integer types"
  | numbersOnly operator => "Operation " ++ operator ++ " is only applicable to numeric types"
  | unknownOperator operator => "Unknown operation " ++ operator
  | divideByZero => "divide by zero"
  | powerFailed fault => "Operation ** failed: " ++ fault.message
  | functionNeedsInteger function => "Function " ++ function ++ " requires an integer argument"
  | functionNeedsNumber function => "Function " ++ function ++ " requires a numeric argument"
  | functionFailed function fault => "Function " ++ function ++ " failed: " ++ fault.message
  | unknownFunction function => "Unknown math function " ++ function
  | listIndexNotInteger => "The index of a list element must be an integer number!"
  | listIndexOutside => "The index of a list exceeded list's dimensions!"
  | stringIndexNotInteger => "The index of a string must be an integer number!"
  | unknownSubcommand name => "Unknown string subcommand " ++ name ++ "!"
  | unsupportedFormatter c => "Unsupported formatter %" ++ c.toString ++ "!"
  | tooManyFormatters => "The number of formatters exceed the number of arguments!"
  | formatterMismatch c => "An argument does not match the formatter %" ++ c.toString ++ "!"
  | illegalFormat fault => "Illegal format string: " ++ fault.message
  | custom text => text

/-- The loops that are bounded. -/
inductive Loop where
  | forLoop
  | whileLoop
  deriving Repr, DecidableEq

def Loop.name : Loop → String
  | forLoop => "for"
  | whileLoop => "while"

/-- A limit that was exceeded, with its value. -/
inductive LimitFault where
  | commands (limit : Int)
  | iterations (loop : Loop) (limit : Int)
  | nesting (limit : Int)
  | custom (text : String)
  deriving Repr, DecidableEq

def LimitFault.message : LimitFault → String
  | commands limit => "too many commands executed (" ++ toString limit ++ ")"
  | iterations loop limit => loop.name ++ " loop: too many iterations (" ++ toString limit ++ ")"
  | nesting limit => "too many nested evaluations (" ++ toString limit ++ ")"
  | custom text => text

inductive IndexFault where
  | operand
  | character (index : Int)
  | characters (first last : Int)
  deriving Repr, DecidableEq

def IndexFault.message : IndexFault → String
  | operand => "list index out of range"
  | character index => "string index " ++ toString index ++ " out of range"
  | characters first last =>
    "string range " ++ toString first ++ " " ++ toString last ++ " out of range"

inductive CommandFault where
  | tooFewOperands (name : String) (least : Nat)
  | index (fault : IndexFault)
  | custom (text : String)
  deriving Repr, DecidableEq

def CommandFault.message : CommandFault → String
  | tooFewOperands name least =>
    "The command " ++ name ++ " requires at least " ++ toString least ++ " operand(s)"
  | index fault => "Index out of range: " ++ fault.message
  | custom text => text

/-- Everything that can go wrong. A numeral too long to be written in decimal, an integer to be
formatted with more digits than can be asked for, and an operator without its operand, which only a
tree that was not parsed can hold, are no script errors: they are not swallowed by nested
scripts. -/
inductive Error where
  | script (text : String)
  | parse (fault : ParseFault) (found expected : Option Token.Kind)
  | parentheses (fault : ParenthesisFault) (found expected : Option Token.Kind)
  | execution (fault : ExecutionFault) (site : Option Node.Site)
  | limit (fault : LimitFault) (site : Option Node.Site)
  | command (fault : CommandFault) (name : Option String)
  | numeralTooLong
  | precisionTooLarge
  | operandMissing
  deriving Repr, DecidableEq

namespace Error

def withKinds (message : String) (found expected : Option Token.Kind) : String :=
  message ++ (found.elim "" fun k => ", found " ++ k.label)
    ++ (expected.elim "" fun k => ", expected " ++ k.label)

def withSite (message : String) (site : Option Node.Site) : String :=
  message ++ site.elim "" fun s => " (at " ++ s.message ++ ")"

def message : Error → String
  | script text => text
  | parse fault found expected => withKinds fault.message found expected
  | parentheses fault found expected => withKinds fault.message found expected
  | execution fault site => withSite fault.message site
  | limit fault site => withSite fault.message site
  | command fault name => fault.message ++ name.elim "" fun n => " (in " ++ n ++ ")"
  | numeralTooLong => "numeral too long"
  | precisionTooLarge => "precision too large"
  | operandMissing => "operand missing"

/-- Whether a nested script lets the error pass: exceeded limits and what is no script error. -/
def escapesNesting : Error → Bool
  | limit .. => true
  | numeralTooLong | precisionTooLarge | operandMissing => true
  | _ => false

end Error

end Tickle
