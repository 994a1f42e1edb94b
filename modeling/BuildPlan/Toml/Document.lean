import BuildPlan.Toml.Scalar

namespace BuildPlan.Toml

structure Assignment where
  path : List Key
  key : Key
  node : Node
  deriving Repr

def Assignment.addTo (fields : Fields) (a : Assignment) : Option Fields := fields.assign a.path a.key a.node

def isBareKeyChar (c : Char) : Bool := c.isAlphanum || c = '_' || c = '-'

def readKeyPart (limit : Nat) (cs : List Char) : Option (Key × List Char) :=
  match cs with
  | '"' :: _ | '\'' :: _ =>
    (Quoted.readLine limit cs).map fun (name, rest) => (⟨String.ofList name, cs⟩, rest)
  | _ =>
    match cs.takeWhile isBareKeyChar with
    | [] => none
    | name => some (⟨String.ofList name, cs⟩, cs.dropWhile isBareKeyChar)

def readKey : (limit : Nat) → List Char → Option (List Key × Key × List Char)
  | 0, _ => none
  | limit + 1, cs => do
    let (part, rest) ← readKeyPart limit (skipBlanks cs)
    match skipBlanks rest with
    | '.' :: rest =>
      let (path, key, rest) ← readKey limit rest
      some (part :: path, key, rest)
    | rest => some ([], part, rest)

def readAssignment (limit : Nat) (readNode : List Char → Option (Node × List Char)) (cs : List Char) :
    Option (Assignment × List Char) := do
  let (path, key, rest) ← readKey limit cs
  match rest with
  | '=' :: rest =>
    let (node, rest) ← readNode (skipBlanks rest)
    some (⟨path, key, node⟩, rest)
  | _ => none

-- Things between commas, on any number of lines, up to the closing bracket; the last may have a comma, too.
def readList (close : Char) (readOne : List Char → Option (α × List Char)) :
    (limit : Nat) → List Char → Option (List α × List Char)
  | 0, _ => none
  | limit + 1, cs => do
    match ← skipLines false cs with
    | [] => none
    | c :: rest =>
      if c = close then some ([], rest)
      else
        let (one, rest) ← readOne (c :: rest)
        match ← skipLines false rest with
        | [] => none
        | c :: rest =>
          if c = close then some ([one], rest)
          else if c = ',' then
            let (more, rest) ← readList close readOne limit rest
            some (one :: more, rest)
          else none

-- A value; arrays and inline tables may be nested as deep as `depth`.
def readNode (limit : Nat) : (depth : Nat) → List Char → Option (Node × List Char)
  | depth + 1, '[' :: rest => do
    let (items, after) ← readList ']' (readNode limit depth) limit rest
    some (.array ('[' :: rest) items, after)
  | depth + 1, '{' :: rest => do
    let (assignments, after) ← readList '}' (readAssignment limit (readNode limit depth)) limit rest
    let fields ← assignments.foldlM Assignment.addTo []
    some (.table ('{' :: rest) (fieldNodes fields), after)
  | _, cs => (readScalar limit cs).map fun (scalar, rest) => (.scalar cs scalar, rest)

def depthLimit : Nat := 80

inductive Statement where
  | assignment (assignment : Assignment)
  -- A header `[path.key]`.
  | table (mark : Mark) (path : List Key) (key : Key)
  -- A header `[[path.key]]`.
  | element (mark : Mark) (path : List Key) (key : Key)
  deriving Repr

def readStatement (limit : Nat) (cs : List Char) : Option (Statement × List Char) :=
  match cs with
  | '[' :: '[' :: rest => do
    let (path, key, rest) ← readKey limit rest
    match rest with
    | ']' :: ']' :: rest => some (.element cs path key, rest)
    | _ => none
  | '[' :: rest => do
    let (path, key, rest) ← readKey limit rest
    match rest with
    | ']' :: rest => some (.table cs path key, rest)
    | _ => none
  | _ => (readAssignment limit (readNode limit depthLimit) cs).map fun (a, rest) => (.assignment a, rest)

def readStatements : (limit : Nat) → List Char → Option (List Statement)
  | 0, _ => none
  | limit + 1, cs => do
    match ← skipLines false cs with
    | [] => some []
    | cs =>
      let (statement, rest) ← readStatement (limit + 1) cs
      let rest ← endOfLine rest
      let more ← readStatements limit rest
      some (statement :: more)

structure Section where
  element : Bool
  mark : Mark
  path : List Key
  key : Key
  body : List Assignment
  deriving Repr

def sections : List Statement → List Assignment × List Section
  | [] => ([], [])
  | .assignment a :: rest => let (body, more) := sections rest; (a :: body, more)
  | .table mark path key :: rest =>
    let (body, more) := sections rest; ([], ⟨false, mark, path, key, body⟩ :: more)
  | .element mark path key :: rest =>
    let (body, more) := sections rest; ([], ⟨true, mark, path, key, body⟩ :: more)

def Section.addTo (fields : Fields) (s : Section) : Option Fields :=
  let body := fun inner => s.body.foldlM Assignment.addTo inner
  let add := if s.element then Fields.addElement s.mark s.key body else Fields.addTable s.mark s.key body
  fields.descend add s.path

def assemble (statements : List Statement) : Option Fields := do
  let (body, sections) := sections statements
  let fields ← body.foldlM Assignment.addTo []
  sections.foldlM Section.addTo fields

def dropByteOrderMark : List Char → List Char
  | '\ufeff' :: rest => rest
  | cs => cs

def read (text : String) : Option (List (Key × Node)) := do
  let cs := dropByteOrderMark text.toList
  let statements ← readStatements (cs.length + 1) cs
  let fields ← assemble statements
  some (fieldNodes fields)

end BuildPlan.Toml
