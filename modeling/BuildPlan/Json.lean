namespace BuildPlan

inductive Json where
  | string (text : String)
  | number (value : Nat)
  | boolean (value : Bool)
  | array (items : List Json)
  | object (fields : List (String × Json))
  deriving Repr

namespace Json

def strings (texts : List String) : Json := array (texts.map string)

def escaped (c : Char) : List Char :=
  match c with
  | '"' => ['\\', '"']
  | '\\' => ['\\', '\\']
  | '\x08' => ['\\', 'b']
  | '\t' => ['\\', 't']
  | '\n' => ['\\', 'n']
  | '\x0c' => ['\\', 'f']
  | '\r' => ['\\', 'r']
  | c =>
    if c.toNat < 0x20 then
      ['\\', 'u', '0', '0', Nat.digitChar (c.toNat / 16), Nat.digitChar (c.toNat % 16)]
    else [c]

def quotedChars (text : String) : List Char := '"' :: (text.toList.flatMap escaped ++ ['"'])

mutual

def chars : Json → List Char
  | string text => quotedChars text
  | number value => Nat.toDigits 10 value
  | boolean true => ['t', 'r', 'u', 'e']
  | boolean false => ['f', 'a', 'l', 's', 'e']
  | array items => '[' :: (itemChars items ++ [']'])
  | object fields => '{' :: (fieldChars fields ++ ['}'])

def itemChars : List Json → List Char
  | [] => []
  | [item] => item.chars
  | item :: rest => item.chars ++ ',' :: itemChars rest

def fieldChars : List (String × Json) → List Char
  | [] => []
  | [(key, value)] => quotedChars key ++ ':' :: value.chars
  | (key, value) :: rest => quotedChars key ++ ':' :: (value.chars ++ ',' :: fieldChars rest)

end

def render (value : Json) : String := String.ofList value.chars

def line (value : Json) : String := value.render ++ "\n"

def hexValue? (c : Char) : Option Nat :=
  if c.isDigit then some (c.toNat - '0'.toNat)
  else if 'a' ≤ c ∧ c ≤ 'f' then some (c.toNat - 'a'.toNat + 10)
  else if 'A' ≤ c ∧ c ≤ 'F' then some (c.toNat - 'A'.toNat + 10)
  else none

-- The character of four hexadecimal digits, unless they are half of a pair.
def codePoint? (a b c d : Char) : Option Char := do
  let value := 4096 * (← hexValue? a) + 256 * (← hexValue? b) + 16 * (← hexValue? c) + (← hexValue? d)
  if value.isValidChar then some (Char.ofNat value) else none

def readString : List Char → Option (List Char × List Char)
  | [] => none
  | '"' :: rest => some ([], rest)
  | '\\' :: 'u' :: a :: b :: c :: d :: rest => do
    let point ← codePoint? a b c d
    let (text, rest) ← readString rest
    some (point :: text, rest)
  | '\\' :: mark :: rest => do
    let c ← match mark with
      | '"' => some '"'
      | '\\' => some '\\'
      | '/' => some '/'
      | 'b' => some '\x08'
      | 't' => some '\t'
      | 'n' => some '\n'
      | 'f' => some '\x0c'
      | 'r' => some '\r'
      | _ => none
    let (text, rest) ← readString rest
    some (c :: text, rest)
  | c :: rest =>
    if c = '\\' ∨ c.toNat < 0x20 then none
    else do
      let (text, rest) ← readString rest
      some (c :: text, rest)

def readNumber (cs : List Char) : Option (Nat × List Char) :=
  match cs.takeWhile Char.isDigit with
  | [] => none
  | digits => some (Nat.ofDigitChars 10 digits 0, cs.dropWhile Char.isDigit)

mutual

def readValue : (limit : Nat) → List Char → Option (Json × List Char)
  | 0, _ => none
  | _ + 1, '"' :: rest => do
    let (text, rest) ← readString rest
    some (string (String.ofList text), rest)
  | _ + 1, 't' :: 'r' :: 'u' :: 'e' :: rest => some (boolean true, rest)
  | _ + 1, 'f' :: 'a' :: 'l' :: 's' :: 'e' :: rest => some (boolean false, rest)
  | _ + 1, '[' :: ']' :: rest => some (array [], rest)
  | limit + 1, '[' :: rest => do
    let (items, rest) ← readItems limit rest
    some (array items, rest)
  | _ + 1, '{' :: '}' :: rest => some (object [], rest)
  | limit + 1, '{' :: rest => do
    let (fields, rest) ← readFields limit rest
    some (object fields, rest)
  | _ + 1, cs => do
    let (value, rest) ← readNumber cs
    some (number value, rest)

-- At least one value, up to the closing bracket.
def readItems : (limit : Nat) → List Char → Option (List Json × List Char)
  | 0, _ => none
  | limit + 1, cs => do
    let (item, rest) ← readValue limit cs
    match rest with
    | ']' :: rest => some ([item], rest)
    | ',' :: rest =>
      let (items, rest) ← readItems limit rest
      some (item :: items, rest)
    | _ => none

def readFields : (limit : Nat) → List Char → Option (List (String × Json) × List Char)
  | 0, _ => none
  | limit + 1, cs => do
    match cs with
    | '"' :: rest =>
      let (key, rest) ← readString rest
      match rest with
      | ':' :: rest =>
        let (value, rest) ← readValue limit rest
        match rest with
        | '}' :: rest => some ([(String.ofList key, value)], rest)
        | ',' :: rest =>
          let (fields, rest) ← readFields limit rest
          some ((String.ofList key, value) :: fields, rest)
        | _ => none
      | _ => none
    | _ => none

end

def ofText? (text : String) : Option Json :=
  match readValue (text.length + 1) text.toList with
  | some (value, []) => some value
  | _ => none

-- The value of a field, for its first occurrence.
def field? (key : String) : Json → Option Json
  | object fields => fields.lookup key
  | _ => none

end Json
end BuildPlan
