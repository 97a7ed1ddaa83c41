import InOrder.Json.Lexeme

/-!
# Reading a JSON text

`Json.read` reads one value and says what follows it. A container whose last element or member is
cut off by a fault keeps the elements before it, so that a user who finds fault with one of those
never learns of the later fault.

The calls are counted down. A call chain three deep takes at least one character, so the start of
three for each character and three more is never used up.
-/

namespace InOrder.Json

/-- The fixed words, after their first letter. -/
def word (v : Json) : List Char → List Char → Reading
  | [], cs => (v, .ok cs)
  | _ :: _, [] => (.broken .truncated .truncated, .error .truncated)
  | w :: ws, c :: cs =>
    if w = c then word v ws cs else (.broken .malformed .malformed, .error .malformed)

/-- No value, for the same fault whoever looks at it. -/
def refuse (f : Fault) : Reading := (.broken f f, .error f)

mutual

/-- A value at the start of `cs`. -/
def value : Nat → List Char → Reading
  | 0, _ => refuse .malformed
  | fuel + 1, cs =>
    match skipGap cs with
    | [] => (.missing, .error .truncated)
    | '\x7b' :: r =>
      let (members, ending, rest) := firstMember fuel r
      (.object members ending, rest)
    | '[' :: r =>
      let (items, rest) := firstItem fuel r
      (.array items (match rest with | .ok _ => none | .error f => some f), rest)
    | '"' :: r => (match skipString r with
      | .ok rest => (.string (stringText r) none, .ok rest)
      | .error f => (.string (stringText r) (some f), .error f))
    | '-' :: r => scanNumber true r
    | 't' :: r => word (.bool true) ['r', 'u', 'e'] r
    | 'f' :: r => word (.bool false) ['a', 'l', 's', 'e'] r
    | 'n' :: r => word .null ['u', 'l', 'l'] r
    | c :: r => if c.isDigit then scanNumber false (c :: r) else refuse .malformed

/-- The elements of an array after its bracket. -/
def firstItem : Nat → List Char → List Json × Except Fault (List Char)
  | 0, _ => ([], .error .malformed)
  | fuel + 1, cs =>
    match skipGap cs with
    | [] => ([], .error .truncated)
    | ']' :: r => ([], .ok r)
    | r => item fuel r

/-- An element, and the elements after it. -/
def item : Nat → List Char → List Json × Except Fault (List Char)
  | 0, _ => ([], .error .malformed)
  | fuel + 1, cs =>
    match value fuel cs with
    | (v, .error f) => ([v], .error f)
    | (v, .ok r) =>
      match skipGap r with
      | [] => ([v], .error .truncated)
      | ']' :: r => ([v], .ok r)
      | ',' :: r =>
        let (vs, rest) := item fuel r
        (v :: vs, rest)
      | _ => ([v], .error .malformed)

/-- The members of an object after its brace. -/
def firstMember : Nat → List Char →
    List (Except Fault (List Char) × Json) × Ending × Except Fault (List Char)
  | 0, _ => ([], .stopped .malformed, .error .malformed)
  | fuel + 1, cs =>
    match skipGap cs with
    | [] => ([], .stopped .truncated, .error .truncated)
    | '\x7d' :: r => ([], .closed, .ok r)
    | '"' :: r => member fuel r
    | _ => ([], .stopped .malformed, .error .malformed)

/-- A member whose key has been opened, and the members after it. -/
def member : Nat → List Char →
    List (Except Fault (List Char) × Json) × Ending × Except Fault (List Char)
  | 0, _ => ([], .stopped .malformed, .error .malformed)
  | fuel + 1, cs =>
    let key := stringText cs
    match skipString cs with
    | .error f => ([(key, .broken f f)], .stopped f, .error f)
    | .ok r =>
      match skipGap r with
      | [] => ([(key, .missing)], .stopped .truncated, .error .truncated)
      | ':' :: r =>
        match value fuel r with
        | (v, .error f) => ([(key, v)], .stopped f, .error f)
        | (v, .ok r) =>
          match skipGap r with
          | [] => ([(key, v)], .stopped .truncated, .error .truncated)
          | '\x7d' :: r => ([(key, v)], .closed, .ok r)
          | ',' :: r =>
            match skipGap r with
            | [] => ([(key, v)], .dangling .truncated, .error .truncated)
            | '"' :: r =>
              let (ms, ending, rest) := member fuel r
              ((key, v) :: ms, ending, rest)
            | _ => ([(key, v)], .dangling .malformed, .error .malformed)
          | _ => ([(key, v)], .stopped .malformed, .error .malformed)
      | _ => ([(key, .broken .malformed .malformed)], .stopped .malformed, .error .malformed)

end

/-- The value at the start of a text, and what follows it. -/
def read (text : List Char) : Reading := value (3 * text.length + 3) text

/-- The fault of a text that goes on after its value. -/
def trailing (rest : List Char) : Option Fault :=
  if (skipGap rest).isEmpty then none else some .malformed

end InOrder.Json
