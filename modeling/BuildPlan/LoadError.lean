import BuildPlan.Catalog
import BuildPlan.Text.Visible

namespace BuildPlan

-- Both count from one; columns count characters.
structure Place where
  line : Nat
  column : Nat
  deriving DecidableEq, Repr

namespace Blueprint

inductive Found where
  | integer (value : Int)
  -- An integer that needs more than 64 bits.
  | wideInteger (value : Int)
  | float (text : String)
  | boolean (value : Bool)
  | string (text : String)
  | sequence
  | map
  deriving DecidableEq, Repr

inductive Expected where
  | string
  | sequence
  | map
  | entry
  | anything
  deriving DecidableEq, Repr

inductive Violation where
  | unknownField (key : String) (known : List String)
  | missingField (key : String)
  | invalidType (found : Found) (expected : Expected)
  -- The targets of an entry are neither a group nor a list.
  | noSelection
  -- An entry in array form without a name.
  | emptyEntry
  deriving DecidableEq, Repr

inductive Problem where
  | notToml (document : String)
  | violation (document : String) (place : Place) (what : Violation)
  | stated (message : String)
  deriving DecidableEq, Repr

def ticked (text : String) : String := "`" ++ text ++ "`"

def Found.message : Found → String
  | integer value => "integer " ++ ticked (toString value)
  | wideInteger value =>
    let isSigned := value < 0x80000000000000000000000000000000
    "integer " ++ ticked (toString value) ++ (if isSigned then " as i128" else " as u128")
  | float text => "floating point " ++ ticked text
  | boolean value => "boolean " ++ ticked (if value then "true" else "false")
  | string text => "string " ++ Text.quoted text
  | sequence => "sequence"
  | map => "map"

def Expected.message : Expected → String
  | string => "a string"
  | sequence => "a sequence"
  | map => "a map"
  | entry => "struct TaskSpec"
  | anything => "any value"

def Violation.message : Violation → String
  | unknownField key known =>
    "unknown field " ++ ticked key ++ ", expected one of " ++ ", ".intercalate (known.map ticked)
  | missingField key => "missing field " ++ ticked key
  | invalidType found expected =>
    "invalid type: " ++ found.message ++ ", expected " ++ expected.message
  | noSelection => "data did not match any variant of untagged enum TargetSelection"
  | emptyEntry => "invalid length 0, expected struct TaskSpec with 4 elements"

-- A library reads the documents, and it refuses them in words of its own.
abbrev Wording := Problem → String

def Problem.message (words : Wording) : Problem → String
  | stated message => message
  | refused => words refused

end Blueprint

inductive EntryDefect where
  | excludeWithoutTargets
  | templateWithoutTargets
  | stated (reason : String)
  deriving DecidableEq, Repr

def EntryDefect.message : EntryDefect → String
  | excludeWithoutTargets => "`exclude` requires `targets`"
  | templateWithoutTargets => "a `\x7btarget\x7d` name requires `targets`"
  | stated reason => reason

inductive LoadError where
  | unreadable (path cause : String)
  | malformed (origin : String) (problem : Blueprint.Problem)
  | unknownGroup (task group : Name)
  | invalidEntry (task : Name) (defect : EntryDefect)
  | fault (cause : Fault)
  deriving DecidableEq, Repr

namespace LoadError

def message (words : Blueprint.Wording) : LoadError → String
  | unreadable path _ => "failed to read catalog " ++ path
  | malformed origin problem => "invalid catalog " ++ origin ++ ": " ++ problem.message words
  | unknownGroup task group => "task '" ++ task ++ "' uses unknown target group '" ++ group ++ "'"
  | invalidEntry task defect => "invalid task entry '" ++ task ++ "': " ++ defect.message
  | fault cause => cause.message

def code : LoadError → String
  | unreadable _ _ => "taskplan::catalog::io"
  | malformed _ _ => "taskplan::catalog::parse"
  | unknownGroup _ _ => "taskplan::catalog::unknown_target_group"
  | invalidEntry _ _ => "taskplan::catalog::invalid_entry"
  | fault cause => cause.code

def help : LoadError → Option String
  | unreadable _ _ => some "Check file permissions and ensure the path exists"
  | unknownGroup _ _ => some "declare the group under [targets] or list the targets explicitly"
  | malformed _ _ | invalidEntry _ _ => none
  | fault cause => cause.help

end LoadError
end BuildPlan
