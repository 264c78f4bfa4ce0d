/-! Why a trace cannot be shown. Each fault is a cause; its wording is in one place per kind. -/
namespace EventTrace

inductive Mark
  | dot
  | plus
  | minus
  deriving DecidableEq, Repr

def Mark.name : Mark → String
  | .dot => "Dot"
  | .plus => "Plus"
  | .minus => "Minus"

inductive FormFault
  | emptyExpression
  | unexpectedCharacter (c : Char) (source : String)
  | malformedLiteral (text : String)
  | operandExpected (found : Mark)
  | memberExpected (operand : String)
  | literalExpected (source : String)
  | trailingInput (source : String)
  | unknownIdentifier (name : String)
  | integerOffsetExpected (typedef member : String)
  | nestedTooDeeply (source : String)
  | openExpression (text : String)
  | openReference (text : String)
  | bracketExpected (letter : Char) (expression : String)
  | referenceExpected
  | unsupportedDirective
  deriving DecidableEq, Repr

def FormFault.message : FormFault → String
  | .emptyExpression => "empty expression"
  | .unexpectedCharacter c source => s!"unexpected character '{c}' in '{source}'"
  | .malformedLiteral text => s!"malformed numeric literal '{text}'"
  | .operandExpected found => s!"operand expected, found {found.name}"
  | .memberExpected operand => s!"member name expected after '{operand}.'"
  | .literalExpected source => s!"numeric literal expected in '{source}'"
  | .trailingInput source => s!"unexpected input after expression in '{source}'"
  | .unknownIdentifier name => s!"unknown identifier '{name}'"
  | .integerOffsetExpected typedef member => s!"integer offset expected for {typedef}.{member}"
  | .nestedTooDeeply source => s!"offset expressions nested too deeply at '{source}'"
  | .openExpression text => s!"unterminated directive expression '[{text}'"
  | .openReference text => s!"unterminated enum reference '{text}'"
  | .bracketExpected letter expression => s!"']' expected after '%{letter}[{expression}'"
  | .referenceExpected => "%E expects '[<expr>, <typedef>[:<member>]]'"
  | .unsupportedDirective => "directive %C is not supported"

inductive FieldFault
  | unbound (operand : String)
  | noMember (typedef member : String)
  | offsetOutOfRange (typedef member : String) (offset : Int64)
  | exceedsWord (typedef member : String) (offset : Nat)
  deriving DecidableEq

def FieldFault.message : FieldFault → String
  | .unbound operand => s!"{operand} is not bound to a typedef"
  | .noMember typedef member => s!"{typedef}.{member}"
  | .offsetOutOfRange typedef member offset => s!"{typedef}.{member} has negative offset {offset}"
  | .exceedsWord typedef member offset =>
    s!"{typedef}.{member} at offset {offset} exceeds the 32-bit source word"

inductive NameFault
  | noTypedef (typedef : String)
  | noMember (typedef member : String)
  | noEntry (reference : String) (value : Int64)
  deriving DecidableEq

def NameFault.message : NameFault → String
  | .noTypedef typedef => s!"typedef '{typedef}' is not defined"
  | .noMember typedef member => s!"{typedef}:{member} is not defined"
  | .noEntry reference value => s!"{reference} has no entry for {value}"

inductive RenderFault
  | form (cause : FormFault)
  | field (cause : FieldFault)
  | name (cause : NameFault)
  deriving DecidableEq

def RenderFault.message : RenderFault → String
  | .form cause => "Syntax error: " ++ cause.message
  | .field cause => "Field not found: " ++ cause.message
  | .name cause => "Enum value not found: " ++ cause.message

/-- Why a run, or a part of it, fails. The two last carry the reason that the source or the sink gives. -/
inductive Fault
  /-- No complete record is left. -/
  | endOfStream
  | render (cause : RenderFault)
  | transfer (reason : String)
  | document (reason : String)
  deriving DecidableEq

def Fault.message : Fault → String
  | .endOfStream => "End of event stream"
  | .render cause => cause.message
  | .transfer reason => "IO error: " ++ reason
  | .document reason => "JSON output error: " ++ reason

end EventTrace
