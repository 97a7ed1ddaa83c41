import InOrder.Error

/-!
# Program files

A file whose name ends in `.bin` holds the words themselves in little-endian order and starts at
the default base; any other file holds a program text.
-/

namespace InOrder.Program

/-- The last part of a path, unless it leads upwards or stays in place. -/
def fileName? (path : List Char) : Option (List Char) :=
  let parts := path.splitOn '/'
  let named := parts.filter fun p => !p.isEmpty
  let placed := named.zipIdx.filter fun (p, i) => p != ['.'] || (i == 0 && path.head? != some '/')
  match placed.getLast? with
  | some (['.', '.'], _) | some (['.'], _) => none
  | some (p, _) => some p
  | none => none

/-- What stands after the last point of a file name. A point at the very start opens no
extension. -/
def extension? (path : List Char) : Option (List Char) :=
  match fileName? path with
  | none => none
  | some name =>
    let back := name.reverse
    let after := (back.takeWhile (· != '.')).reverse
    let before := (back.dropWhile (· != '.')).drop 1
    if before.isEmpty then none else some after

/-- The file holds a binary program. -/
def isBinary (path : String) : Bool := extension? path.toList == some ['b', 'i', 'n']

/-- The words of a binary program, four bytes each. -/
def wordsOf (n : Nat) (bytes : List UInt8) : List UInt32 :=
  (List.range n).map fun i => Bytes.u32At bytes (4 * i)

/-- The image of a binary program. -/
def ofBinary (path : String) (bytes : List UInt8) : Except SetupError Image :=
  if bytes.length % 4 = 0 then
    .ok (Image.ofWords defaultBase (wordsOf (bytes.length / 4) bytes))
  else .error (.badProgram path 0 s!"{bytes.length} bytes" .brokenWord)

/-- The image of a program file with the given content. -/
def load (path : String) (content : Except ReadFault (List UInt8)) : Except SetupError Image :=
  match content with
  | .error f => .error (.unreadable path f)
  | .ok bytes =>
    if isBinary path then ofBinary path bytes
    else match String.fromUTF8? (ByteArray.mk bytes.toArray) with
      | none => .error (.unreadable path .notText)
      | some text =>
        match parse text.toList with
        | .ok image => .ok image
        | .error e => .error (.badProgram path e.line (String.ofList e.text) e.cause)

end InOrder.Program
