import InOrder.Json.Value
import InOrder.Text.Hex

/-!
# Strings and numbers of JSON

A string is scanned twice over the same characters. `skipString` only looks for its end and checks
that each escape is one; `stringText` also builds the text, for which two escapes that spell the
halves of one character have to stand together. Both stop at the same quote when both succeed.

`scanNumber` reads the longest number and what follows it.
-/

namespace InOrder.Json

/-- The characters that JSON puts between its tokens. -/
def isGap (c : Char) : Bool := c = ' ' || c = '\n' || c = '\t' || c = '\r'

/-- Drop the gap at the start. -/
def skipGap (cs : List Char) : List Char := cs.dropWhile isGap

/-! ### Strings -/

/-- The character of a one-letter escape. -/
def simpleEscape? : Char → Option Char
  | '"' => some '"'
  | '\\' => some '\\'
  | '/' => some '/'
  | 'b' => some (Char.ofNat 8)
  | 'f' => some (Char.ofNat 12)
  | 'n' => some '\n'
  | 'r' => some '\r'
  | 't' => some '\t'
  | _ => none

/-- The unit that four hexadecimal digits spell. -/
def unit? (a b c d : Char) : Option Nat := Hex.readDigits? [a, b, c, d]

/-- The fault of fewer than four characters after the `u` of an escape: they are cut short unless
they fill the room of four bytes. -/
def shortUnit (cs : List Char) : Fault :=
  if 4 ≤ (cs.map Char.utf8Size).foldl (· + ·) 0 then .malformed else .truncated

/-- What follows the string whose opening quote has been read. -/
def skipString : List Char → Except Fault (List Char)
  | [] => .error .truncated
  | '"' :: r => .ok r
  | '\\' :: 'u' :: a :: b :: c :: d :: r =>
    if (unit? a b c d).isSome then skipString r else .error .malformed
  | '\\' :: 'u' :: r => .error (shortUnit r)
  | '\\' :: e :: r => if (simpleEscape? e).isSome then skipString r else .error .malformed
  | '\\' :: [] => .error .truncated
  | c :: r => if c.toNat < 0x20 then .error .malformed else skipString r

/-- The upper half of a character outside the first plane. -/
def isHigh (n : Nat) : Bool := 0xd800 ≤ n && n < 0xdc00

/-- The lower half of a character outside the first plane. -/
def isLow (n : Nat) : Bool := 0xdc00 ≤ n && n < 0xe000

/-- The character with these two halves. -/
def joinHalves (high low : Nat) : Char :=
  Char.ofNat (0x10000 + (high - 0xd800) * 0x400 + (low - 0xdc00))

/-- The text of the string whose opening quote has been read. -/
def stringText : List Char → Except Fault (List Char)
  | [] => .error .truncated
  | '"' :: _ => .ok []
  | '\\' :: 'u' :: a :: b :: c :: d :: r =>
    match unit? a b c d with
    | none => .error .malformed
    | some n =>
      if isLow n then .error .malformed
      else if isHigh n then
        match r with
        | '\\' :: 'u' :: a :: b :: c :: d :: r =>
          match unit? a b c d with
          | none => .error .malformed
          | some m => if isLow m then (stringText r).map (joinHalves n m :: ·) else .error .malformed
        | '\\' :: 'u' :: r => .error (shortUnit r)
        | ['\\'] | [] => .error .truncated
        | _ => .error .malformed
      else (stringText r).map (Char.ofNat n :: ·)
  | '\\' :: 'u' :: r => .error (shortUnit r)
  | '\\' :: e :: r =>
    match simpleEscape? e with
    | some c => (stringText r).map (c :: ·)
    | none => .error .malformed
  | '\\' :: [] => .error .truncated
  | c :: r => if c.toNat < 0x20 then .error .malformed else (stringText r).map (c :: ·)

/-! ### Numbers -/

/-- The longest run of decimal digits, and the rest. -/
def spanDigits (cs : List Char) : List Char × List Char :=
  (cs.takeWhile Char.isDigit, cs.dropWhile Char.isDigit)

/-- The number that decimal digits spell. -/
def decimal (ds : List Char) : Nat := ds.foldl (fun n c => 10 * n + (c.toNat - 48)) 0

/-- Keep a digit of a number if it fits. -/
def Number.push? (n : Number) (c : Char) : Option Number :=
  let kept := 10 * n.significand + (c.toNat - 48)
  if kept < UInt64.size then some { n with significand := kept } else none

/-- Keep the digits before the point. From the first one on that does not fit, each raises the
scale. -/
def Number.pushWhole (n : Number) : List Char → Number
  | [] => n
  | c :: cs =>
    match n.push? c with
    | some n => n.pushWhole cs
    | none => { n with scale := n.scale + (cs.length + 1) }

theorem Number.pushWhole_cons (n : Number) (c : Char) (cs : List Char) :
    n.pushWhole (c :: cs) = match n.push? c with
      | some n => n.pushWhole cs
      | none => { n with scale := n.scale + (cs.length + 1) } := (rfl)

/-- Keep the digits after the point, up to the first one that does not fit. -/
def Number.pushFraction (n : Number) : List Char → Number
  | [] => n
  | c :: cs =>
    match n.push? c with
    | some n => { n with scale := n.scale - 1 }.pushFraction cs
    | none => n

/-- A number that stops where a digit belongs. One that the text cuts short is truncated for a
reader that uses it and malformed for one that passes over it. -/
def noDigit (rest : List Char) : Json :=
  .broken (if rest.isEmpty then .truncated else .malformed) .malformed

/-- A value and what follows it; or the fault of passing over the value. -/
abbrev Reading := Json × Except Fault (List Char)

/-- The exponent of a number, if there is one. -/
def scanExponent (n : Number) (cs : List Char) : Reading :=
  let finish (n : Number) (r : List Char) : Reading := (.number n, .ok r)
  let signed (down : Bool) (r : List Char) : Reading :=
    match spanDigits r with
    | ([], r) => (noDigit r, .error .malformed)
    | (ds, r) =>
      let e : Int := decimal ds
      finish { n with scale := n.scale + (if down then -e else e), whole := false } r
  match cs with
  | 'e' :: '-' :: r | 'E' :: '-' :: r => signed true r
  | 'e' :: '+' :: r | 'E' :: '+' :: r => signed false r
  | 'e' :: r | 'E' :: r => signed false r
  | r => finish n r

/-- The fraction and the exponent of a number, where there are any. -/
def scanFraction (n : Number) (cs : List Char) : Reading :=
  match cs with
  | '.' :: r =>
    match spanDigits r with
    | ([], r) => (noDigit r, .error .malformed)
    | (ds, r) =>
      scanExponent ({ n with whole := false }.pushFraction ds) r
  | r => scanExponent n r

/-- A number after its sign. A zero at the start stands alone before the point. -/
def scanNumber (negative : Bool) (cs : List Char) : Reading :=
  match spanDigits cs with
  | ([], r) => (noDigit r, .error .malformed)
  | ('0' :: _ :: _, _) => (.broken .malformed .malformed, .error .malformed)
  | (ds, r) => scanFraction (Number.pushWhole ⟨negative, 0, 0, true⟩ ds) r

end InOrder.Json
