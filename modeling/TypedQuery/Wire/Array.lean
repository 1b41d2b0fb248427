import TypedQuery.Wire.Element

/-!
# Arrays of any dimension

The server writes an array as text, with braces around each level, or as bytes: the length of
every dimension and then all elements in a row.
-/

namespace TypedQuery
namespace Wire

/-!
## Text
-/

namespace ArrayText

/-- The text of a quoted element, up to its closing quote; a backslash makes the next character
part of the text. -/
def quoted : List Char -> Option (List Char × List Char)
  | [] => none
  | '"' :: rest => some ([], rest)
  | ['\\'] => none
  | '\\' :: c :: rest => (quoted rest).map fun (text, rest) => (c :: text, rest)
  | c :: rest => (quoted rest).map fun (text, rest) => (c :: text, rest)

/-- The text of an element without quotes, up to a comma or a closing brace. -/
def bare : List Char -> List Char × List Char
  | [] => ([], [])
  | ['\\'] => ([], [])
  | '\\' :: c :: rest =>
      let (text, rest) := bare rest
      (c :: text, rest)
  | c :: rest =>
      if c = ',' ∨ c = '\x7d' then ([], c :: rest)
      else
        let (text, rest) := bare rest
        (c :: text, rest)

/-- An element without quotes; the word NULL in any case stands for it. -/
def bareElement (element : Oid) (text : List Char) : Result Value :=
  let text := Text.trim text
  if text.map Char.toLower = ['n', 'u', 'l', 'l'] then .ok .null
  else textElement element (String.ofList text)

mutual

/-- One level of an array, from its opening brace on. -/
def level (element : Oid) : Nat -> List Char -> Result (List Value × List Char)
  | 0, _ => .error (.conversion (.array .malformed))
  | fuel + 1, cs =>
      match cs with
      | '\x7b' :: '\x7d' :: rest => .ok ([], rest)
      | '\x7b' :: rest => items element fuel rest
      | _ => .error (.conversion (.array .noOpening))

/-- The items of a level, up to its closing brace. -/
def items (element : Oid) : Nat -> List Char -> Result (List Value × List Char)
  | 0, _ => .error (.conversion (.array .malformed))
  | fuel + 1, cs => do
      let (value, rest) <- item element fuel cs
      match rest with
      | ',' :: rest =>
          let (values, rest) <- items element fuel rest
          return (value :: values, rest)
      | '\x7d' :: rest => return ([value], rest)
      | _ => throw (.conversion (.array .malformed))

def item (element : Oid) : Nat -> List Char -> Result (Value × List Char)
  | 0, _ => .error (.conversion (.array .malformed))
  | fuel + 1, cs =>
      match cs with
      | '\x7b' :: _ => do
          let (values, rest) <- level element fuel cs
          return (.array values, rest)
      | '"' :: rest =>
          match quoted rest with
          | some (text, rest) => do return (<- textElement element (String.ofList text), rest)
          | none => .error (.conversion (.array .unterminatedQuote))
      | cs => do
          let (text, rest) := bare cs
          return (<- bareElement element text, rest)

end

/-- Every character is entered by at most three of the readers. -/
def fuel (cs : List Char) : Nat := 3 * cs.length + 3

/-- Reads an array; bounds that are not the usual ones stand before it and an equals sign. -/
def read (element : Oid) (text : String) : Result Value := do
  let cs := text.toList
  let body <-
    match cs with
    | '[' :: _ =>
        match (IntervalText.splitAt '=' cs).2 with
        | some body => pure body
        | none => throw (.conversion (.array (.malformedBounds text)))
    | _ => pure cs
  match <- level element (fuel body) body with
  | (values, []) => return .array values
  | _ => throw (.conversion (.array (.trailing text)))

end ArrayText

/-!
## Bytes
-/

namespace ArrayBytes

/-- The length of each of so many dimensions; lower bounds are left out of account. -/
def lengths : Nat -> List UInt8 -> Result (List Nat × List UInt8)
  | 0, bytes => .ok ([], bytes)
  | count + 1, bytes => do
      let (n, rest) <- takeInt32 bytes
      if n < 0 then throw (.conversion (.array (.badLength n)))
      let (_, rest) <- takeInt32 rest
      let (more, rest) <- lengths count rest
      return (n.toNat :: more, rest)

/-- So many elements, each after its length; a negative length is a NULL. -/
def elements (element : Oid) : Nat -> List UInt8 -> Result (List Value)
  | 0, _ => .ok []
  | count + 1, bytes => do
      let (n, rest) <- takeInt32 bytes
      if n < 0 then return .null :: (<- elements element count rest)
      else
        let (head, rest) <- takeBytes n.toNat rest
        let value <- binaryElement element head
        return value :: (<- elements element count rest)

/-- So many values, each cut by `one` from what the one before it left. -/
def cut (one : List Value -> Value × List Value) : Nat -> List Value -> List Value × List Value
  | 0, values => ([], values)
  | n + 1, values =>
      let (first, rest) := one values
      let (more, rest) := cut one n rest
      (first :: more, rest)

/-- Arranges elements in the given dimensions, and gives those that are left. -/
def nest : List Nat -> List Value -> Value × List Value
  | [], values => (.array [], values)
  | [n], values => (.array (values.take n), values.drop n)
  | n :: inner, values =>
      let (items, rest) := cut (nest inner) n values
      (.array items, rest)

/-- What stands before the elements: their type and the length of every dimension; and the bytes
that follow. -/
structure Header where
  element : Oid
  lengths : List Nat
  rest : List UInt8

def header (bytes : List UInt8) : Result Header := do
  let (dimensions, rest) <- takeInt32 bytes
  let (_, rest) <- takeInt32 rest
  let (element, rest) <- takeBytes 4 rest
  let (lengths, rest) <- lengths dimensions.toNat rest
  return ⟨Number.BigEndian.toNat element, lengths, rest⟩

/-- The number of elements, counted in a word of 64 bits. -/
def count (lengths : List Nat) : UInt64 :=
  lengths.foldl (fun count length => count * .ofNat length) 1

def read (bytes : List UInt8) : Result Value := do
  let ⟨element, lengths, rest⟩ <- header bytes
  if lengths.isEmpty then return .array []
  else
    let values <- elements element (count lengths).toNat rest
    return (nest lengths values).1

end ArrayBytes

end Wire
end TypedQuery
