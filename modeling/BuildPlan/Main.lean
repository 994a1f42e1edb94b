import BuildPlan.Program

open BuildPlan

namespace BuildPlan.CommandLine

def readFault : IO.Error → ReadFault
  | .noFileOrDirectory .. => .absent
  | .inappropriateType _ 21 _ => .isDirectory
  | .inappropriateType .. => .notDirectory
  | .invalidArgument .. => .nameTooLong
  | error => .other error.toString

def readText (path : String) : IO (Except ReadFault String) := do
  try
    let bytes ← IO.FS.readBinFile path
    match String.fromUTF8? bytes with
    | some text => return .ok text
    | none => return .error .notText
  catch error => return .error (readFault error)

def filesFor (i : Invocation) : IO Files := do
  match i.catalog with
  | none => return fun _ => .error .absent
  | some path =>
    let text ← readText path
    return fun _ => text

def readEnvironment : IO Environment := do
  return ⟨← IO.getEnv "TASKPLAN_CATALOG", ← IO.getEnv "RUST_LOG"⟩

def words : Blueprint.Wording
  | .notToml _ => "not a TOML document"
  | .violation _ place what =>
    "line " ++ toString place.line ++ ", column " ++ toString place.column ++ ": " ++ what.message
  | .stated message => message

def failureText (f : Failure) : String :=
  f.code ++ "\n\n  x " ++ f.message words ++ "\n" ++
    (match f.help with
      | some help => "  help: " ++ help ++ "\n"
      | none => "")

def printStop (stop : Invocation.Stop) : IO UInt32 := do
  if stop.isMistake then IO.eprint (Usage.text stop) else IO.print (Usage.text stop)
  return stop.exitCode.toUInt32

def printOutcome (i : Invocation) (outcome : Program.Outcome) : IO UInt32 := do
  for record in outcome.records do
    IO.eprint (record.render i.lineFormat)
  IO.eprint outcome.remark
  IO.print outcome.output
  if let some failure := outcome.failure then
    if i.output = .text then IO.eprint (failureText failure)
  return outcome.exitCode.toUInt32

end BuildPlan.CommandLine

def main (arguments : List String) : IO UInt32 := do
  let env ← CommandLine.readEnvironment
  match Invocation.ofArguments arguments env.catalogPath with
  | .error stop => CommandLine.printStop stop
  | .ok i =>
    let files ← CommandLine.filesFor i
    CommandLine.printOutcome i (Program.perform CommandLine.words files env i)
