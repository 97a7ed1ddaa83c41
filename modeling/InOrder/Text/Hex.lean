/-!
# Hexadecimal numerals

* `Hex.lower n` writes a natural number with lower-case digits and no leading zero; `Hex.marked`
  puts `0x` in front, `Hex.markedPadded` also fills with zeros to a fixed number of digits.
* `Hex.read?` reads one or more digits of either case after an optional plus sign. It takes any
  number of leading zeros and has no upper limit; the caller bounds the value.
-/

namespace InOrder.Hex

/-- The digit with value `v`, for `v < 16`. -/
def digit (v : Nat) : Char :=
  if v < 10 then Char.ofNat (48 + v) else Char.ofNat (87 + v)

/-- The digits of `n`, most significant first; zero is one digit. -/
def digits (n : Nat) : List Char := Nat.toDigits 16 n

/-- `n` in lower-case digits. -/
def lower (n : Nat) : String := String.ofList (digits n)

/-- `n` in lower-case digits after the mark `0x`. -/
def marked (n : Nat) : String := "0x" ++ lower n

/-- `n` after the mark `0x`, filled with zeros to at least `width` digits. -/
def markedPadded (width n : Nat) : String :=
  "0x" ++ String.ofList (List.replicate (width - (digits n).length) '0' ++ digits n)

/-- A byte as two digits, high half first. -/
def ofByte (b : UInt8) : List Char := [digit (b.toNat / 16), digit (b.toNat % 16)]

/-- A byte string, two digits a byte. -/
def ofBytes (bs : List UInt8) : String := String.ofList (bs.flatMap ofByte)

/-- The value of one digit of either case. -/
def value? (c : Char) : Option Nat :=
  if '0' ≤ c ∧ c ≤ '9' then some (c.toNat - 48)
  else if 'a' ≤ c ∧ c ≤ 'f' then some (c.toNat - 87)
  else if 'A' ≤ c ∧ c ≤ 'F' then some (c.toNat - 55)
  else none

/-- Digits after a value `acc` already read. -/
def readFrom? (acc : Nat) : List Char → Option Nat
  | [] => some acc
  | c :: cs =>
    match value? c with
    | some v => readFrom? (16 * acc + v) cs
    | none => none

/-- One or more digits and nothing else. -/
def readDigits? : List Char → Option Nat
  | [] => none
  | cs => readFrom? 0 cs

/-- One or more digits after an optional plus sign. -/
def read? : List Char → Option Nat
  | '+' :: cs => readDigits? cs
  | cs => readDigits? cs

/-- A byte string from two digits a byte. -/
def readBytes? : List Char → Option (List UInt8)
  | [] => some []
  | [_] => none
  | h :: l :: cs =>
    match value? h, value? l, readBytes? cs with
    | some h, some l, some bs => some (UInt8.ofNat (16 * h + l) :: bs)
    | _, _, _ => none

end InOrder.Hex
