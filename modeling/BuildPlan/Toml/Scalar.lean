import BuildPlan.Toml.Node
import BuildPlan.Toml.Quoted

namespace BuildPlan.Toml

namespace Word

-- Digits, with single underscores between them, and what follows.
def digitRun (isDigit : Char → Bool) : (afterDigit : Bool) → List Char → List Char × List Char
  | _, [] => ([], [])
  | afterDigit, c :: rest =>
    if isDigit c then
      let (digits, rest) := digitRun isDigit true rest
      (c :: digits, rest)
    else if c = '_' && afterDigit && rest.head?.any isDigit then digitRun isDigit false rest
    else ([], c :: rest)

def allDigits? (isDigit : Char → Bool) (cs : List Char) : Option (List Char) :=
  match digitRun isDigit false cs with
  | ([], _) => none
  | (digits, []) => some digits
  | _ => none

def numeral (base : Nat) (digits : List Char) : Nat :=
  digits.foldl (fun value c => base * value + (Quoted.hexDigit? c).getD 0) 0

def sign : List Char → Bool × List Char
  | '-' :: rest => (true, rest)
  | '+' :: rest => (false, rest)
  | rest => (false, rest)

-- Decimal digits without a needless zero in front.
def plainDigits : List Char → Bool
  | [] => false
  | '0' :: _ :: _ => false
  | _ => true

def isHexDigit (c : Char) : Bool := (Quoted.hexDigit? c).isSome
def isOctDigit (c : Char) : Bool := '0' ≤ c && c ≤ '7'
def isBinDigit (c : Char) : Bool := c = '0' || c = '1'

def integer? : List Char → Option Int
  | '0' :: 'x' :: rest => (allDigits? isHexDigit rest).map fun digits => numeral 16 digits
  | '0' :: 'o' :: rest => (allDigits? isOctDigit rest).map fun digits => numeral 8 digits
  | '0' :: 'b' :: rest => (allDigits? isBinDigit rest).map fun digits => numeral 2 digits
  | cs => do
    let (negative, rest) := sign cs
    let digits ← allDigits? Char.isDigit rest
    if plainDigits digits then
      let value : Int := numeral 10 digits
      some (if negative then -value else value)
    else none

def fraction? : List Char → Option (List Char × List Char)
  | '.' :: rest =>
    match digitRun Char.isDigit false rest with
    | ([], _) => none
    | read => some read
  | rest => some ([], rest)

def exponent? : List Char → Option Int
  | [] => some 0
  | c :: rest =>
    if c = 'e' ∨ c = 'E' then do
      let (negative, rest) := sign rest
      let digits ← allDigits? Char.isDigit rest
      let value : Int := numeral 10 digits
      some (if negative then -value else value)
    else none

def float? (cs : List Char) : Option Number :=
  match sign cs with
  | (negative, ['i', 'n', 'f']) => some (.infinite negative)
  | (_, ['n', 'a', 'n']) => some .nan
  | (negative, rest) => do
    let (whole, rest) := digitRun Char.isDigit false rest
    if !plainDigits whole || rest.isEmpty then none
    let (fraction, rest) ← fraction? rest
    let exponent ← exponent? rest
    some (.finite ⟨negative, numeral 10 (whole ++ fraction), exponent - fraction.length⟩)

def read (cs : List Char) : Option Scalar :=
  if cs = ['t', 'r', 'u', 'e'] then some (.boolean true)
  else if cs = ['f', 'a', 'l', 's', 'e'] then some (.boolean false)
  else (integer? cs).map .integer <|> (float? cs).map .float <|> (Moment.read cs).map .moment

def isWordChar (c : Char) : Bool :=
  c.isAlphanum || c = '+' || c = '-' || c = '.' || c = ':' || c = '_'

-- A word and what follows it. A date takes in a time that follows after one space.
def split (cs : List Char) : List Char × List Char :=
  let word := cs.takeWhile isWordChar
  let rest := cs.dropWhile isWordChar
  match Moment.readDate word, rest with
  | some (_, []), ' ' :: c :: rest =>
    if c.isDigit then
      (word ++ ' ' :: (c :: rest).takeWhile isWordChar, (c :: rest).dropWhile isWordChar)
    else (word, ' ' :: c :: rest)
  | _, _ => (word, rest)

end Word

-- A value without parts; `limit` is more than the number of characters that are left.
def readScalar (limit : Nat) (cs : List Char) : Option (Scalar × List Char) :=
  match cs with
  | '"' :: _ | '\'' :: _ => (Quoted.read limit cs).map fun (text, rest) => (.string (String.ofList text), rest)
  | _ =>
    let (word, rest) := Word.split cs
    (Word.read word).map (·, rest)

end BuildPlan.Toml
