import InOrder.Program.Text
import InOrder.Json.Value
import InOrder.Text.Quoted

/-!
# What can go wrong before a run

A configuration or a program is refused for one of the causes of `SetupError`. `SetupError.message`
is the wording of each.
-/

namespace InOrder

/-- The bound that a parameter has to keep. -/
inductive Bound where
  | atLeastOne
  | atMostByte
  | multipleOfWord
  | belowWordBits
deriving DecidableEq, Repr

/-- The bound in words. -/
def Bound.message : Bound → String
  | .atLeastOne => ">= 1"
  | .atMostByte => "<= 255"
  | .multipleOfWord => "a non-zero multiple of 4"
  | .belowWordBits => "< 32"

/-- Why a file has no readable content. -/
inductive ReadFault where
  | missing
  | notText
  /-- Any other fault, in the words of the system. -/
  | other (text : String)
deriving DecidableEq, Repr

/-- The fault in words. -/
def ReadFault.message : ReadFault → String
  | .missing => "No such file or directory (os error 2)"
  | .notText => "stream did not contain valid UTF-8"
  | .other text => text

/-- Why a configuration or a program is refused. -/
inductive SetupError where
  /-- A parameter does not keep its bound. -/
  | badParameter (name : String) (bound : Bound) (value : Nat)
  /-- The register to corrupt does not exist. -/
  | unknownRegister (name : String)
  /-- The configuration is not the JSON of one. -/
  | badConfig (fault : Json.Fault)
  /-- A program file has a line at fault. -/
  | badProgram (path : String) (line : Nat) (text : String) (cause : Program.Cause)
  /-- A file could not be read. -/
  | unreadable (path : String) (fault : ReadFault)
deriving DecidableEq

/-- A fault of a configuration text in words. -/
def Json.Fault.message : Json.Fault → String
  | .malformed => "invalid syntax"
  | .unsuitable => "invalid data"
  | .truncated => "unexpected end of input"

/-- The wording of an error. -/
def SetupError.message : SetupError → String
  | badParameter name bound value => s!"{name} must be {bound.message} ({value})"
  | unknownRegister name =>
    "injectComp must be one of f1ToF2, f2ToD, dToE, eToF1, f2ToF1 or empty (got " ++
      Text.quoted name ++ ")"
  | badConfig fault => s!"malformed configuration: {fault.message}"
  | badProgram path line text cause =>
    s!"{path}:{line}: {cause.message} (" ++ Text.quoted text ++ ")"
  | unreadable path fault => s!"cannot read {path}: {fault.message}"

end InOrder
