import BuildPlan.Decimal

namespace BuildPlan.Toml

structure Date where
  year : Nat
  month : Nat
  day : Nat
  deriving DecidableEq, Repr

structure Time where
  hour : Nat
  minute : Nat
  second : Option Nat
  -- Billionths of a second, if a fraction is written.
  nanosecond : Option Nat
  deriving DecidableEq, Repr

inductive Offset where
  | utc
  | hours (negative : Bool) (hour minute : Nat)
  deriving DecidableEq, Repr

inductive Moment where
  | date (date : Date)
  | time (time : Time)
  | both (date : Date) (time : Time) (offset : Option Offset)
  deriving DecidableEq, Repr

namespace Moment

def daysIn (year month : Nat) : Nat :=
  if month = 2 then
    if year % 4 = 0 && (year % 100 != 0 || year % 400 = 0) then 29 else 28
  else if month ∈ [4, 6, 9, 11] then 30 else 31

def digit? (c : Char) : Option Nat := if c.isDigit then some (c.toNat - '0'.toNat) else none

def readDigits : (count : Nat) → (value : Nat) → List Char → Option (Nat × List Char)
  | 0, value, rest => some (value, rest)
  | _ + 1, _, [] => none
  | count + 1, value, c :: rest => do
    let d ← digit? c
    readDigits count (10 * value + d) rest

def expect (c : Char) : List Char → Option (List Char)
  | [] => none
  | head :: rest => if head = c then some rest else none

def readDate (cs : List Char) : Option (Date × List Char) := do
  let (year, cs) ← readDigits 4 0 cs
  let cs ← expect '-' cs
  let (month, cs) ← readDigits 2 0 cs
  let cs ← expect '-' cs
  let (day, cs) ← readDigits 2 0 cs
  if 1 ≤ month ∧ month ≤ 12 ∧ 1 ≤ day ∧ day ≤ daysIn year month then some (⟨year, month, day⟩, cs)
  else none

-- The digits of a fraction as billionths; digits beyond the ninth say nothing.
def nanoseconds (digits : List Char) : Nat :=
  ((digits ++ List.replicate 9 '0').take 9).foldl
    (fun value c => 10 * value + (c.toNat - '0'.toNat)) 0

def readFraction : List Char → Option (Option Nat × List Char)
  | '.' :: rest =>
    match rest.takeWhile Char.isDigit with
    | [] => none
    | digits => some (some (nanoseconds digits), rest.dropWhile Char.isDigit)
  | rest => some (none, rest)

def readTime (cs : List Char) : Option (Time × List Char) := do
  let (hour, cs) ← readDigits 2 0 cs
  let cs ← expect ':' cs
  let (minute, cs) ← readDigits 2 0 cs
  if 23 < hour ∨ 59 < minute then none
  match cs with
  | ':' :: cs =>
    let (second, cs) ← readDigits 2 0 cs
    if 60 < second then none
    let (fraction, cs) ← readFraction cs
    some (⟨hour, minute, some second, fraction⟩, cs)
  | cs => some (⟨hour, minute, none, none⟩, cs)

def readOffset (cs : List Char) : Option (Option Offset × List Char) :=
  match cs with
  | [] => some (none, [])
  | c :: rest =>
    if c = 'Z' ∨ c = 'z' then some (some .utc, rest)
    else if c = '+' ∨ c = '-' then do
      let (hour, rest) ← readDigits 2 0 rest
      let rest ← expect ':' rest
      let (minute, rest) ← readDigits 2 0 rest
      if 23 < hour ∨ 59 < minute then none
      some (some (.hours (c = '-') hour minute), rest)
    else none

-- A whole text as a moment. Date and time are parted by a letter or by a space.
def read (cs : List Char) : Option Moment :=
  match readDate cs with
  | some (d, []) => some (.date d)
  | some (d, c :: rest) =>
    if c = 'T' ∨ c = 't' ∨ c = ' ' then do
      let (t, rest) ← readTime rest
      let (offset, rest) ← readOffset rest
      if rest.isEmpty then some (.both d t offset) else none
    else none
  | none =>
    match readTime cs with
    | some (t, []) => some (.time t)
    | _ => none

def padded (count n : Nat) : String :=
  let digits := Nat.toDigits 10 n
  String.ofList (List.replicate (count - digits.length) '0' ++ digits)

def dateText (d : Date) : String := padded 4 d.year ++ "-" ++ padded 2 d.month ++ "-" ++ padded 2 d.day

-- A fraction without its trailing zeros, with one digit at least.
def fractionText (nanosecond : Nat) : String :=
  match ((padded 9 nanosecond).toList.reverse.dropWhile (· == '0')).reverse with
  | [] => ".0"
  | digits => "." ++ String.ofList digits

def timeText (t : Time) : String :=
  padded 2 t.hour ++ ":" ++ padded 2 t.minute ++
    (match t.second with | some second => ":" ++ padded 2 second | none => "") ++
    (match t.nanosecond with | some nanosecond => fractionText nanosecond | none => "")

def offsetText : Offset → String
  | .utc => "Z"
  | .hours negative hour minute =>
    (if negative && (hour != 0 || minute != 0) then "-" else "+") ++
      padded 2 hour ++ ":" ++ padded 2 minute

def text : Moment → String
  | date d => dateText d
  | time t => timeText t
  | both d t none => dateText d ++ "T" ++ timeText t
  | both d t (some offset) => dateText d ++ "T" ++ timeText t ++ offsetText offset

end Moment

-- What is left of the document at some place.
abbrev Mark := List Char

-- Numbers keep what was written; whether one is in range is a question for whoever wants it as a number of
-- some width.
inductive Number where
  | nan
  | infinite (negative : Bool)
  | finite (value : Decimal)
  deriving DecidableEq, Repr

inductive Scalar where
  | string (text : String)
  | integer (value : Int)
  | float (value : Number)
  | boolean (value : Bool)
  | moment (value : Moment)
  deriving DecidableEq, Repr

structure Key where
  name : String
  mark : Mark
  deriving DecidableEq, Repr

inductive Node where
  | scalar (mark : Mark) (value : Scalar)
  | array (mark : Mark) (items : List Node)
  -- The keys are distinct and stand in increasing order.
  | table (mark : Mark) (fields : List (Key × Node))
  deriving Repr

def Node.mark : Node → Mark
  | scalar mark _ | array mark _ | table mark _ => mark

-- What may still be added to a table depends on how it came to be. A value that was written out, such as an
-- inline table, takes nothing more.
inductive Origin where
  | header
  -- Only named in front of a dot in a header.
  | headerPart
  -- Only named in front of a dot in a key.
  | keyPart
  deriving DecidableEq, Repr

inductive Item where
  | value (node : Node)
  | table (mark : Mark) (origin : Origin) (fields : List (Key × Item))
  -- Tables of one header in double brackets: the closed ones, youngest first, and the open one.
  | tables (mark : Mark) (closed : List Node) (lastMark : Mark) (last : List (Key × Item))
  deriving Repr

-- The fields of a table by increasing names.
abbrev Fields := List (Key × Item)

mutual
def Item.toNode : Item → Node
  | .value node => node
  | .table mark _ fields => .table mark (fieldNodes fields)
  | .tables mark closed lastMark last =>
    .array mark (closed.reverse ++ [.table lastMark (fieldNodes last)])

def fieldNodes : List (Key × Item) → List (Key × Node)
  | [] => []
  | (key, item) :: rest => (key, item.toNode) :: fieldNodes rest
end

namespace Fields

-- Change what stands under a key, or put something there; none when the change is not allowed.
def alter (key : Key) (change : Option (Key × Item) → Option (Key × Item)) : Fields → Option Fields
  | [] => (change none).map ([·])
  | field :: rest =>
    if key.name < field.1.name then (change none).map fun new => new :: field :: rest
    else if key.name = field.1.name then (change (some field)).map fun new => new :: rest
    else (alter key change rest).map (field :: ·)

def put (key : Key) (node : Node) (fields : Fields) : Option Fields :=
  fields.alter key fun
    | none => some (key, .value node)
    | some _ => none

-- The effect of `path.key = value`. The tables on the path may only have come to be as parts of keys
-- or headers, and the innermost only as a part of a key.
def assign : (path : List Key) → (key : Key) → Node → Fields → Option Fields
  | [], key, node, fields => fields.put key node
  | part :: path, key, node, fields =>
    fields.alter part fun
      | none => (assign path key node []).map fun inner => (part, .table part.mark .keyPart inner)
      | some (_, .value _) => none
      | some (_, .table _ .header _) => none
      | some (known, .table mark .headerPart inner) =>
        if path.isEmpty then none
        else (assign path key node inner).map fun inner => (known, .table mark .headerPart inner)
      | some (known, .table mark .keyPart inner) =>
        (assign path key node inner).map fun inner => (known, .table mark .keyPart inner)
      | some (known, .tables mark closed lastMark last) =>
        if path.isEmpty then none
        else (assign path key node last).map fun last => (known, .tables mark closed lastMark last)

-- Go down the part of a header in front of its last dot, into the open one of several tables.
def descend (change : Fields → Option Fields) : (path : List Key) → Fields → Option Fields
  | [], fields => change fields
  | part :: path, fields =>
    fields.alter part fun
      | none => (descend change path []).map fun inner => (part, .table part.mark .headerPart inner)
      | some (_, .value _) => none
      | some (known, .table mark origin inner) =>
        (descend change path inner).map fun inner => (known, .table mark origin inner)
      | some (known, .tables mark closed lastMark last) =>
        (descend change path last).map fun last => (known, .tables mark closed lastMark last)

-- The effect of `[key]` with the statements below it. A table that was only a part of longer headers
-- is made anew at this header, and keeps what it holds.
def addTable (mark : Mark) (key : Key) (body : Fields → Option Fields) (fields : Fields) : Option Fields :=
  fields.alter key fun
    | none => (body []).map fun inner => (key, .table mark .header inner)
    | some (_, .table _ .headerPart inner) =>
      (body inner).map fun inner => (key, .table mark .header inner)
    | some _ => none

def addElement (mark : Mark) (key : Key) (body : Fields → Option Fields) (fields : Fields) : Option Fields :=
  fields.alter key fun
    | none => (body []).map fun inner => (key, .tables mark [] mark inner)
    | some (known, .tables first closed lastMark last) =>
      (body []).map fun inner =>
        (known, .tables first (.table lastMark (fieldNodes last) :: closed) mark inner)
    | some _ => none

end Fields
end BuildPlan.Toml
