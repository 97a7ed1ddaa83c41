import InOrder.Image
import InOrder.Text.Blank
import InOrder.Text.Hex

/-!
# Programs as text

A program text has one entry a line. A `#` starts a comment, and white space around the entry is
ignored. An entry is a 32-bit word in hexadecimal, or `@` and a base address; a base address has to
stand before the first word, and the last one counts. Either number may be marked by `0x` or `0X`
and may have a plus sign after that.

`Program.parse` gives the image, or the first line that is at fault.
-/

namespace InOrder.Program

/-- The base address of a program that names none. -/
def defaultBase : UInt64 := 0x80000000

/-- What is wrong with a program. -/
inductive Cause where
  /-- A base address after a word. -/
  | lateBase
  /-- The base address is not a 64-bit hexadecimal number. -/
  | badBase
  /-- The word is not a 32-bit hexadecimal number. -/
  | badWord
  /-- A binary program that does not consist of whole words. -/
  | brokenWord
deriving DecidableEq, Repr

/-- The cause in words. -/
def Cause.message : Cause → String
  | .lateBase => "base address after the first word"
  | .badBase => "invalid base address"
  | .badWord => "expected a 32-bit hex word"
  | .brokenWord => "binary length is not a multiple of 4"

/-- A line at fault: its number, counted from one, its text and the cause. -/
structure LineError where
  line : Nat
  text : List Char
  cause : Cause
deriving DecidableEq

/-- What a line says. -/
inductive Entry where
  | nothing
  | base (addr : UInt64)
  | word (value : UInt32)
deriving DecidableEq

/-- The part of a line that counts: before the comment, without white space around it. -/
def content (line : List Char) : List Char := Text.trim (line.takeWhile (· != '#'))

/-- Drop white space around a number, and one mark of its base. -/
def stripMark (cs : List Char) : List Char :=
  match Text.trim cs with
  | '0' :: 'x' :: r | '0' :: 'X' :: r => r
  | r => r

/-- A hexadecimal number below `2 ^ bits`, with or without a mark. -/
def number? (bits : Nat) (cs : List Char) : Option Nat :=
  match Hex.read? (stripMark cs) with
  | some n => if n < Nat.pow 2 bits then some n else none
  | none => none

/-- The entry on a line. `started` says that a word came before it. -/
def entry (started : Bool) (line : List Char) : Except Cause Entry :=
  match content line with
  | [] => .ok .nothing
  | '@' :: addr =>
    if started then .error .lateBase
    else match number? 64 addr with
      | some n => .ok (.base (UInt64.ofNat n))
      | none => .error .badBase
  | cs =>
    match number? 32 cs with
    | some n => .ok (.word (UInt32.ofNat n))
    | none => .error .badWord

/-- The base and the words of the lines numbered from `n` on, after `base` and, in reverse, `ws`. -/
def parseFrom (n : Nat) (base : UInt64) (ws : List UInt32) :
    List (List Char) → Except LineError (UInt64 × List UInt32)
  | [] => .ok (base, ws.reverse)
  | line :: rest =>
    match entry (!ws.isEmpty) line with
    | .ok .nothing => parseFrom (n + 1) base ws rest
    | .ok (.base b) => parseFrom (n + 1) b ws rest
    | .ok (.word w) => parseFrom (n + 1) base (w :: ws) rest
    | .error cause => .error ⟨n, line, cause⟩

/-- The image of a program text. -/
def parse (text : List Char) : Except LineError Image :=
  (parseFrom 1 defaultBase [] (Text.lines text)).map fun (base, ws) => Image.ofWords base ws

end InOrder.Program
