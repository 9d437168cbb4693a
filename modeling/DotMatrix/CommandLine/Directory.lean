import DotMatrix.CommandLine.Session

/-! A directory of files without subdirectories, as the surroundings of a run. -/
namespace DotMatrix

structure Directory where
  files : List (String × ByteArray)
  /-- The lines printed so far. -/
  printed : String

namespace Directory

/-- What a path leads to. -/
inductive Target where
  | file (name : String)
  /-- A directory, which is neither read nor written. -/
  | directory
  | nowhere
  deriving DecidableEq

/-- A step of a path that stays in the directory. -/
def stays (part : String) : Bool := part.isEmpty || part == "."

/-- A path names a file by one name, after any number of steps that stay in the directory; a path
that starts at the root leaves it. -/
def target (path : String) : Target :=
  let parts := path.splitOn "/"
  let last := parts.getLast?.getD ""
  if path.isEmpty || path.contains '\x00' then .nowhere
  else if parts.all fun part => stays part || part == ".." then .directory
  else if path.startsWith "/" || !parts.dropLast.all stays || stays last || last == ".." then .nowhere
  else .file last

def read? (path : String) (d : Directory) : Option ByteArray :=
  match target path with
  | .file name => d.files.lookup name
  | _ => none

def contains (path : String) (d : Directory) : Bool :=
  match target path with
  | .file name => (d.files.lookup name).isSome
  | .directory => true
  | .nowhere => false

def put (name : String) (bytes : ByteArray) : List (String × ByteArray) → List (String × ByteArray)
  | [] => [(name, bytes)]
  | (other, old) :: rest =>
    if other = name then (name, bytes) :: rest else (other, old) :: put name bytes rest

end Directory

instance : Host (StateM Directory) where
  readFile path := return (← get).read? path
  fileExists path := return (← get).contains path
  writeFile path bytes := do
    match Directory.target path with
    | .file name =>
      modify fun d => { d with files := Directory.put name bytes d.files }
      return true
    | _ => return false
  printLine line := modify fun d => { d with printed := d.printed ++ line ++ "\n" }

def Directory.run (options : Options) (d : Directory) : Except RunError Unit × Directory :=
  (Session.run (m := StateM Directory) options).run.run d

end DotMatrix
