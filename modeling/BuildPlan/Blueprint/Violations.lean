import BuildPlan.Blueprint.Schema

namespace BuildPlan.Blueprint.Schema

open Toml (Node Key Mark)

namespace Violations

def mismatch (node : Node) (expected : Expected) : Refusal :=
  match foundIn node with
  | .ok found => .violation node.mark (.invalidType found expected)
  | .error refusal => refusal

def isText : Node → Bool
  | .scalar _ (.string _) => true
  | _ => false

def ofString (node : Node) : List Refusal := if isText node then [] else [mismatch node .string]

def ofStrings : Node → List Refusal
  | .array _ items => items.flatMap ofString
  | node => [mismatch node .sequence]

def ofGroups : Node → List Refusal
  | .table _ fields => fields.flatMap fun field => ofStrings field.2
  | .scalar mark (.moment moment) =>
    [.violation mark (.invalidType (.string moment.text) .sequence)]
  | node => [mismatch node .map]

mutual

def ofNumbers : Node → List Refusal
  | .scalar mark (.integer value) =>
    match integerFound value with
    | .ok (.wideInteger value) => [.violation mark (.invalidType (.wideInteger value) .anything)]
    | .ok _ => []
    | .error refusal => [refusal]
  | .scalar _ (.float value) =>
    match floatFound value with
    | .ok _ => []
    | .error refusal => [refusal]
  | .scalar _ _ => []
  | .array _ items => ofItemNumbers items
  | .table _ fields => ofFieldNumbers fields

def ofItemNumbers : List Node → List Refusal
  | [] => []
  | node :: rest => ofNumbers node ++ ofItemNumbers rest

def ofFieldNumbers : List (Key × Node) → List Refusal
  | [] => []
  | (_, node) :: rest => ofNumbers node ++ ofFieldNumbers rest

end

def isSelection : Node → Bool
  | .array _ items => items.all isText
  | node => isText node

-- Targets are read as a whole before anyone asks whether they are a string or a list of strings.
def ofSelection (node : Node) : List Refusal :=
  ofNumbers node ++ if isSelection node then [] else [.violation node.mark .noSelection]

def ofUnknown (key : Key) (known : List String) : Refusal :=
  .violation key.mark (.unknownField key.name known)

def ofEntryValue : String → Node → List Refusal
  | "name" => ofString
  | "targets" => ofSelection
  | _ => ofStrings

def ofEntryField (field : Key × Node) : List Refusal :=
  if field.1.name ∈ entryKeys then ofEntryValue field.1.name field.2 else [ofUnknown field.1 entryKeys]

def ofMissing (mark : Mark) (fields : List (Key × Node)) : List Refusal :=
  if fields.any fun field => field.1.name = "name" then []
  else [.violation mark (.missingField "name")]

-- By position, an item stands under the key of the same position; there may be more items than keys.
def ofItems (mark : Mark) : List Node → List Refusal
  | [] => [.violation mark .emptyEntry]
  | items => (entryKeys.zip items).flatMap fun item => ofEntryValue item.1 item.2

def ofEntry : Node → List Refusal
  | .table mark fields => fields.flatMap ofEntryField ++ ofMissing mark fields
  | .array mark items => ofItems mark items
  | .scalar mark (.moment _) => [ofUnknown (momentField mark) entryKeys]
  | node => [mismatch node .entry]

def ofEntries : Node → List Refusal
  | .array _ items => items.flatMap ofEntry
  | node => [mismatch node .sequence]

def ofValue : String → Node → List Refusal
  | "targets" => ofGroups
  | "task" => ofEntries
  | _ => ofStrings

def ofField (field : Key × Node) : List Refusal :=
  if field.1.name ∈ documentKeys then ofValue field.1.name field.2 else [ofUnknown field.1 documentKeys]

def ofDocument (fields : List (Key × Node)) : List Refusal := fields.flatMap ofField

end Violations

end BuildPlan.Blueprint.Schema
