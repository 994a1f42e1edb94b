import BuildPlan.LoadError

namespace BuildPlan

inductive Failure.Kind where
  | config
  | resolve
  | other
  deriving DecidableEq, Repr

inductive Failure.Cause where
  | loading (error : LoadError)
  | scheduling (fault : Fault)
  | invalid (faults : List Fault)
  | output (reason : String)
  | stated (kind : Failure.Kind) (message : String)
  deriving DecidableEq, Repr

structure Failure where
  cause : Failure.Cause
  help : Option String
  deriving DecidableEq, Repr

namespace Failure

namespace Kind

def word : Kind → String
  | config => "config"
  | resolve => "resolve"
  | other => "other"

def exitCode : Kind → Nat
  | config => 2
  | resolve | other => 3

def code (kind : Kind) : String := "taskplan::cli::" ++ kind.word

-- A fault of a name that was met on the way to a schedule is one of the request; all others are in the catalog.
def ofFault : Fault → Kind
  | .unknown _ _ | .circular _ _ => resolve
  | .duplicate _ | .missing _ | .cyclic _ => config

def ofLoadError : LoadError → Kind
  | .fault cause => ofFault cause
  | .unreadable _ _ | .malformed _ _ | .unknownGroup _ _ | .invalidEntry _ _ => config

end Kind

def loadMessage (words : Blueprint.Wording) : LoadError → String
  | .unreadable path cause => (LoadError.unreadable path cause).message words ++ ": " ++ cause
  | error => error.message words

def problemLine (fault : Fault) : String := "  - " ++ fault.message

namespace Cause

def kind : Cause → Kind
  | loading error => .ofLoadError error
  | scheduling fault => .ofFault fault
  | invalid _ => .config
  | output _ => .other
  | stated kind _ => kind

def message (words : Blueprint.Wording) : Cause → String
  | loading error => loadMessage words error
  | scheduling fault => fault.message
  | invalid faults =>
    "catalog validation failed with " ++ toString faults.length ++ " problem(s):\n" ++
      "\n".intercalate (faults.map problemLine)
  | output reason => "failed to write output: " ++ reason
  | stated _ message => message

def help : Cause → Option String
  | loading error => error.help
  | scheduling fault => fault.help
  | invalid _ => some "fix the listed tasks in the catalog and run --check again"
  | output _ | stated _ _ => none

end Cause

def ofCause (cause : Cause) : Failure := ⟨cause, cause.help⟩

def withHelp (f : Failure) (help : String) : Failure := { f with help := some help }

def kind (f : Failure) : Kind := f.cause.kind

def exitCode (f : Failure) : Nat := f.kind.exitCode

def code (f : Failure) : String := f.kind.code

def message (words : Blueprint.Wording) (f : Failure) : String :=
  match f.kind with
  | .config | .resolve => f.cause.message words
  | .other => "Unexpected error: " ++ f.cause.message words

end Failure
end BuildPlan
