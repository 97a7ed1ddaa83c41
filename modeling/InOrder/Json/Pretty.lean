import InOrder.Text.Hex

/-!
# Writing JSON

A document is written with one element or member a line, indented by two blanks for each container
around it. An empty container stays on its line.
-/

namespace InOrder.Json

/-- A JSON document to be written. -/
inductive Document where
  /-- A number or a fixed word, as it stands. -/
  | literal (text : String)
  | string (text : String)
  | array (items : List Document)
  | object (members : List (String × Document))

/-- One character inside a string. -/
def escapeChar (c : Char) : List Char :=
  if c = '"' then ['\\', '"']
  else if c = '\\' then ['\\', '\\']
  else if c = '\n' then ['\\', 'n']
  else if c = '\r' then ['\\', 'r']
  else if c = '\t' then ['\\', 't']
  else if c = Char.ofNat 8 then ['\\', 'b']
  else if c = Char.ofNat 12 then ['\\', 'f']
  else if c.toNat < 0x20 then ['\\', 'u', '0', '0'] ++ Hex.ofByte (UInt8.ofNat c.toNat)
  else [c]

/-- A text between quotes, with escapes. -/
def stringLiteral (s : String) : String :=
  String.ofList ('"' :: s.toList.flatMap escapeChar ++ ['"'])

/-- The start of a line inside `depth` containers. -/
def newLine (depth : Nat) : String := "\n" ++ String.ofList (List.replicate (2 * depth) ' ')

/-- Lines between an opening and a closing mark, at the given depth. -/
def block (opening closing : String) (depth : Nat) (entries : List String) : String :=
  if entries.isEmpty then opening ++ closing
  else
    opening ++ ",".intercalate (entries.map (newLine (depth + 1) ++ ·)) ++ newLine depth ++ closing

mutual

/-- A document inside `depth` containers. -/
def Document.renderAt (depth : Nat) : Document → String
  | .literal text => text
  | .string text => stringLiteral text
  | .array items => block "[" "]" depth (Document.renderItems (depth + 1) items)
  | .object members => block "\x7b" "\x7d" depth (Document.renderMembers (depth + 1) members)

/-- The elements of an array. -/
def Document.renderItems (depth : Nat) : List Document → List String
  | [] => []
  | d :: ds => d.renderAt depth :: Document.renderItems depth ds

/-- The members of an object. -/
def Document.renderMembers (depth : Nat) : List (String × Document) → List String
  | [] => []
  | (key, d) :: rest =>
    (stringLiteral key ++ ": " ++ d.renderAt depth) :: Document.renderMembers depth rest

end

/-- A document as text, without a line end. -/
def Document.render (d : Document) : String := d.renderAt 0

end InOrder.Json
