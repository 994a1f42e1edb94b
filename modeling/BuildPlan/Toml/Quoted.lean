namespace BuildPlan.Toml

def isBlank (c : Char) : Bool := c = ' ' || c = '\t'

-- Control characters other than the tab are never written as they are.
def isText (c : Char) : Bool := c = '\t' || (0x20 ≤ c.toNat && c.toNat != 0x7f)

def skipBlanks (cs : List Char) : List Char := cs.dropWhile isBlank

-- What follows a line end. A carriage return alone ends no line.
def lineEnd? : List Char → Option (List Char)
  | '\n' :: rest => some rest
  | '\r' :: '\n' :: rest => some rest
  | _ => none

-- Blanks, line ends and comments, any number of them; none when a comment cannot be read.
def skipLines : (inComment : Bool) → List Char → Option (List Char)
  | _, [] => some []
  | _, '\n' :: rest => skipLines false rest
  | _, '\r' :: '\n' :: rest => skipLines false rest
  | true, c :: rest => if isText c then skipLines true rest else none
  | false, c :: rest =>
    if isBlank c then skipLines false rest
    else if c = '#' then skipLines true rest
    else some (c :: rest)

def endOfLine (cs : List Char) : Option (List Char) :=
  match skipBlanks cs with
  | [] => some []
  | '#' :: rest =>
    let after := rest.dropWhile isText
    if after.isEmpty then some [] else lineEnd? after
  | rest => lineEnd? rest

end BuildPlan.Toml

namespace BuildPlan.Toml.Quoted

def hexDigit? (c : Char) : Option Nat :=
  if c.isDigit then some (c.toNat - '0'.toNat)
  else if 'a' ≤ c ∧ c ≤ 'f' then some (c.toNat - 'a'.toNat + 10)
  else if 'A' ≤ c ∧ c ≤ 'F' then some (c.toNat - 'A'.toNat + 10)
  else none

def readCodePoint : (count : Nat) → (value : Nat) → List Char → Option (Char × List Char)
  | 0, value, rest => if value.isValidChar then some (Char.ofNat value, rest) else none
  | _ + 1, _, [] => none
  | count + 1, value, c :: rest => do
    let d ← hexDigit? c
    readCodePoint count (16 * value + d) rest

def readEscape : List Char → Option (Char × List Char)
  | 'b' :: rest => some ('\x08', rest)
  | 't' :: rest => some ('\t', rest)
  | 'n' :: rest => some ('\n', rest)
  | 'f' :: rest => some ('\x0c', rest)
  | 'r' :: rest => some ('\r', rest)
  | 'e' :: rest => some ('\x1b', rest)
  | '"' :: rest => some ('"', rest)
  | '\\' :: rest => some ('\\', rest)
  | 'x' :: rest => readCodePoint 2 0 rest
  | 'u' :: rest => readCodePoint 4 0 rest
  | 'U' :: rest => readCodePoint 8 0 rest
  | _ => none

-- Readers get the text after the opening quotes. Here and below, `limit` is to be more than the number of
-- characters that are left.
def readBasic : (limit : Nat) → List Char → Option (List Char × List Char)
  | 0, _ => none
  | _ + 1, [] => none
  | _ + 1, '"' :: rest => some ([], rest)
  | limit + 1, '\\' :: rest => do
    let (c, rest) ← readEscape rest
    let (cs, rest) ← readBasic limit rest
    some (c :: cs, rest)
  | limit + 1, c :: rest =>
    if isText c then do
      let (cs, rest) ← readBasic limit rest
      some (c :: cs, rest)
    else none

def readLiteral : List Char → Option (List Char × List Char)
  | [] => none
  | '\'' :: rest => some ([], rest)
  | c :: rest =>
    if isText c then do
      let (cs, rest) ← readLiteral rest
      some (c :: cs, rest)
    else none

-- Up to two quotes may stand right before the three that close a string on several lines.
def trailingQuotes (quote : Char) : List Char → List Char × List Char
  | c :: d :: rest =>
    if c = quote ∧ d = quote then ([c, d], rest)
    else if c = quote then ([c], d :: rest)
    else ([], c :: d :: rest)
  | [c] => if c = quote then ([c], []) else ([], [c])
  | [] => ([], [])

def skipMargin : List Char → List Char
  | '\n' :: rest => skipMargin rest
  | '\r' :: '\n' :: rest => skipMargin rest
  | c :: rest => if isBlank c then skipMargin rest else c :: rest
  | [] => []

-- After a backslash at the end of a line, the text goes on at the next character that is seen.
def continuation? (cs : List Char) : Option (List Char) := (lineEnd? (skipBlanks cs)).map skipMargin

-- A string with escapes on several lines. Line ends are kept as they are.
def readBasicLines : (limit : Nat) → List Char → Option (List Char × List Char)
  | 0, _ => none
  | _ + 1, [] => none
  | _ + 1, '"' :: '"' :: '"' :: rest => some (trailingQuotes '"' rest)
  | limit + 1, '\\' :: rest =>
    match continuation? rest with
    | some rest => readBasicLines limit rest
    | none => do
      let (c, rest) ← readEscape rest
      let (cs, rest) ← readBasicLines limit rest
      some (c :: cs, rest)
  | limit + 1, '\r' :: '\n' :: rest => do
    let (cs, rest) ← readBasicLines limit rest
    some ('\r' :: '\n' :: cs, rest)
  | limit + 1, c :: rest =>
    if isText c || c = '\n' then do
      let (cs, rest) ← readBasicLines limit rest
      some (c :: cs, rest)
    else none

def readLiteralLines : List Char → Option (List Char × List Char)
  | [] => none
  | '\'' :: '\'' :: '\'' :: rest => some (trailingQuotes '\'' rest)
  | '\r' :: '\n' :: rest => do
    let (cs, rest) ← readLiteralLines rest
    some ('\r' :: '\n' :: cs, rest)
  | c :: rest =>
    if isText c || c = '\n' then do
      let (cs, rest) ← readLiteralLines rest
      some (c :: cs, rest)
    else none

-- A line end right after the opening quotes does not belong to the string.
def afterOpening (cs : List Char) : List Char := (lineEnd? cs).getD cs

def readLine (limit : Nat) : List Char → Option (List Char × List Char)
  | '"' :: rest => readBasic limit rest
  | '\'' :: rest => readLiteral rest
  | _ => none

def read (limit : Nat) : List Char → Option (List Char × List Char)
  | '"' :: '"' :: '"' :: rest => readBasicLines limit (afterOpening rest)
  | '\'' :: '\'' :: '\'' :: rest => readLiteralLines (afterOpening rest)
  | cs => readLine limit cs

end BuildPlan.Toml.Quoted
