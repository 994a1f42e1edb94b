namespace BuildPlan

inductive ReadFault where
  | absent
  | isDirectory
  -- The path goes on below something that is no directory.
  | notDirectory
  | nameTooLong
  | zeroInName
  | notText
  | other (message : String)
  deriving DecidableEq, Repr

def ReadFault.message : ReadFault → String
  | absent => "No such file or directory (os error 2)"
  | isDirectory => "Is a directory (os error 21)"
  | notDirectory => "Not a directory (os error 20)"
  | nameTooLong => "File name too long (os error 36)"
  | zeroInName => "file name contained an unexpected NUL byte"
  | notText => "stream did not contain valid UTF-8"
  | other message => message

abbrev Files := String → Except ReadFault String

-- What lies outside of the directory cannot be seen, apart from its being there.
structure FileTree where
  files : List (List String × ByteArray)

namespace FileTree

inductive Spot where
  | outside
  | directory (names : List String)
  | file (content : ByteArray)

def parts (path : String) : List String := path.splitOn "/"

def ofList (files : List (String × ByteArray)) : FileTree :=
  ⟨files.map fun (path, content) => ((parts path).filter fun part => part ≠ "" ∧ part ≠ ".", content)⟩

def isDirectory (t : FileTree) (names : List String) : Bool :=
  t.files.any fun (path, _) => names.isPrefixOf path && decide (names.length < path.length)

-- The longest name that one part of a path may have, in bytes.
def nameLimit : Nat := 255

-- A path has fewer bytes than this.
def pathLimit : Nat := 4096

def step (t : FileTree) (spot : Spot) (part : String) : Except ReadFault Spot :=
  match spot with
  | .file _ => .error .notDirectory
  | .outside =>
    if part = "" ∨ part = "." ∨ part = ".." then .ok .outside
    else if nameLimit < part.utf8ByteSize then .error .nameTooLong
    else .error .absent
  | .directory names =>
    if part = "" ∨ part = "." then .ok (.directory names)
    else if part = ".." then .ok (if names.isEmpty then .outside else .directory names.dropLast)
    else if nameLimit < part.utf8ByteSize then .error .nameTooLong
    else
      match t.files.lookup (names ++ [part]) with
      | some content => .ok (.file content)
      | none =>
        if t.isDirectory (names ++ [part]) then .ok (.directory (names ++ [part]))
        else .error .absent

def spot (t : FileTree) (path : String) : Except ReadFault Spot :=
  let start := if path.startsWith "/" then Spot.outside else .directory []
  (parts path).foldlM t.step start

def read (t : FileTree) : Files := fun path =>
  if path.contains '\x00' then .error .zeroInName
  else if path = "" then .error .absent
  else if pathLimit ≤ path.utf8ByteSize then .error .nameTooLong
  else
    match t.spot path with
    | .error fault => .error fault
    | .ok .outside | .ok (.directory _) => .error .isDirectory
    | .ok (.file content) =>
      match String.fromUTF8? content with
      | some text => .ok text
      | none => .error .notText

end FileTree
end BuildPlan
