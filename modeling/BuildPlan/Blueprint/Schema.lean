import BuildPlan.Blueprint
import BuildPlan.Toml.Document

namespace BuildPlan.Blueprint.Schema

open Toml (Node Scalar Number Key Mark)

-- The keys of a table are taken in increasing order, arrays from front to back, and the first thing that does
-- not fit is reported. What is missing is noticed only after everything that is there has been accepted.
inductive Refusal where
  -- A number is written that no number type holds.
  | outOfRange
  | violation (mark : Mark) (what : Violation)
  deriving DecidableEq, Repr

abbrev Accepting := Except Refusal

def fitsIn64 (value : Int) : Bool := -Int.ofNat (twoTo 63) ≤ value && value < Int.ofNat (twoTo 64)

def fitsIn128 (value : Int) : Bool := -Int.ofNat (twoTo 127) ≤ value && value < Int.ofNat (twoTo 128)

def integerFound (value : Int) : Accepting Found :=
  if fitsIn64 value then .ok (.integer value)
  else if fitsIn128 value then .ok (.wideInteger value)
  else .error .outOfRange

def floatFound : Number → Accepting Found
  | .nan => .ok (.float "NaN")
  | .infinite negative => .ok (.float (if negative then "-inf" else "inf"))
  | .finite value =>
    match value.shortestText with
    | some text => .ok (.float text)
    | none => .error .outOfRange

def foundIn : Node → Accepting Found
  | .scalar _ (.string text) => .ok (.string text)
  | .scalar _ (.integer value) => integerFound value
  | .scalar _ (.float value) => floatFound value
  | .scalar _ (.boolean value) => .ok (.boolean value)
  | .scalar _ (.moment _) => .ok .map
  | .array _ _ => .ok .sequence
  | .table _ _ => .ok .map

def refuse (node : Node) (expected : Expected) : Accepting α := do
  let found ← foundIn node
  throw (.violation node.mark (.invalidType found expected))

def string : Node → Accepting String
  | .scalar _ (.string text) => .ok text
  | node => refuse node .string

def strings : Node → Accepting (List String)
  | .array _ items => items.mapM string
  | node => refuse node .sequence

def unknownField (key : Key) (known : List String) : Accepting α :=
  throw (.violation key.mark (.unknownField key.name known))

-- A date or a time is, to whoever looks for keys, a table with this one key.
def momentKey : String := "$__toml_private_datetime"

def momentField (mark : Mark) : Key := ⟨momentKey, mark⟩

def groups : Node → Accepting (List (Name × List Name))
  | .table _ fields => fields.mapM fun (key, node) => return (key.name, ← strings node)
  | .scalar mark (.moment moment) =>
    throw (.violation mark (.invalidType (.string moment.text) .sequence))
  | node => refuse node .map

mutual
-- Only strings and lists can be targets, but a number that cannot be read is noticed first.
def readable : Node → Accepting Unit
  | .scalar mark (.integer value) => do
    match ← integerFound value with
    | .wideInteger value => throw (.violation mark (.invalidType (.wideInteger value) .anything))
    | _ => return ()
  | .scalar _ (.float value) => do
    let _ ← floatFound value
  | .scalar _ _ => return ()
  | .array _ items => readableItems items
  | .table _ fields => readableFields fields

def readableItems : List Node → Accepting Unit
  | [] => return ()
  | node :: rest => do
    readable node
    readableItems rest

def readableFields : List (Key × Node) → Accepting Unit
  | [] => return ()
  | (_, node) :: rest => do
    readable node
    readableFields rest
end

def text? : Node → Option String
  | .scalar _ (.string text) => some text
  | _ => none

def selection? : Node → Option Selection
  | .scalar _ (.string text) => some (.group text)
  | .array _ items => (items.mapM text?).map .list
  | _ => none

def selection (node : Node) : Accepting Selection := do
  readable node
  match selection? node with
  | some selection => return selection
  | none => throw (.violation node.mark .noSelection)

structure EntryDraft where
  name : Option Name := none
  needs : List Name := []
  targets : Option Selection := none
  exclude : List Name := []

def entryKeys : List String := ["name", "depends", "targets", "exclude"]

def EntryDraft.read (draft : EntryDraft) (field : Key × Node) : Accepting EntryDraft :=
  match field.1.name with
  | "name" => return { draft with name := some (← string field.2) }
  | "depends" => return { draft with needs := ← strings field.2 }
  | "targets" => return { draft with targets := some (← selection field.2) }
  | "exclude" => return { draft with exclude := ← strings field.2 }
  | _ => unknownField field.1 entryKeys

def EntryDraft.finish (draft : EntryDraft) (mark : Mark) : Accepting Entry :=
  match draft.name with
  | some name => .ok ⟨name, draft.needs, draft.targets, draft.exclude⟩
  | none => throw (.violation mark (.missingField "name"))

-- An entry as an array: its fields by position, what is left out at its default, more ignored.
def entryOfItems (mark : Mark) : List Node → Accepting Entry
  | [] => throw (.violation mark .emptyEntry)
  | [name] => return { name := ← string name }
  | [name, needs] => return { name := ← string name, needs := ← strings needs }
  | [name, needs, targets] =>
    return { name := ← string name, needs := ← strings needs, targets := some (← selection targets) }
  | name :: needs :: targets :: exclude :: _ =>
    return {
      name := ← string name, needs := ← strings needs, targets := some (← selection targets)
      exclude := ← strings exclude }

def entry : Node → Accepting Entry
  | .table mark fields => do (← fields.foldlM EntryDraft.read {}).finish mark
  | .array mark items => entryOfItems mark items
  | .scalar mark (.moment _) => unknownField (momentField mark) entryKeys
  | node => refuse node .entry

def entries : Node → Accepting (List Entry)
  | .array _ items => items.mapM entry
  | node => refuse node .sequence

def documentKeys : List String := ["assume_provided", "target_depends", "targets", "task"]

def read (b : Blueprint) (field : Key × Node) : Accepting Blueprint :=
  match field.1.name with
  | "assume_provided" => return { b with assumed := ← strings field.2 }
  | "target_depends" => return { b with targetNeeds := ← strings field.2 }
  | "targets" => return { b with groups := ← groups field.2 }
  | "task" => return { b with entries := ← entries field.2 }
  | _ => unknownField field.1 documentKeys

def ofFields (fields : List (Key × Node)) : Accepting Blueprint := fields.foldlM read {}

end BuildPlan.Blueprint.Schema

namespace BuildPlan.Blueprint

def placeAfter (before : List Char) : Place :=
  { line := before.count '\n' + 1
    column := (before.reverse.takeWhile (· != '\n')).length + 1 }

def placeOf (text : String) (mark : Toml.Mark) : Place :=
  let cs := text.toList
  placeAfter (cs.take (cs.length - mark.length))

def problemOf (text : String) : Schema.Refusal → Problem
  | .outOfRange => .notToml text
  | .violation mark what => .violation text (placeOf text mark) what

def parse (text : String) : Except Problem Blueprint :=
  match Toml.read text with
  | none => .error (.notToml text)
  | some fields =>
    match Schema.ofFields fields with
    | .ok b => .ok b
    | .error refusal => .error (problemOf text refusal)

def ofText (text origin : String) : Except LoadError Blueprint :=
  (parse text).mapError (.malformed origin)

end BuildPlan.Blueprint
