import EventTrace.CommandLine.Command
/-! A directory in memory, to run the command in. -/
namespace EventTrace.CommandLine

/-- Files by their path from the directory, name by name. A folder is there if a file is in it. -/
structure Directory where
  files : List (List String × List UInt8) := []

inductive Place
  | file (bytes : List UInt8)
  | folder
  | vacant
  deriving DecidableEq

namespace Directory

def missing : String := "No such file or directory (os error 2)"
def notFolder : String := "Not a directory (os error 20)"
def isFolder : String := "Is a directory (os error 21)"

def placeAt (d : Directory) (path : List String) : Place :=
  match d.files.lookup path with
  | some bytes => .file bytes
  | none => if path = [] ∨ d.files.any (fun f => path.isPrefixOf f.1) then .folder else .vacant

/-- Follows names from a folder. An empty name and a single dot stay there. Every name but the last must be a folder; with
nothing after it, a slash asks for a folder too. -/
def follow (d : Directory) (here : List String) : List String → Except String (List String)
  | [] => .ok here
  | name :: rest =>
    match d.placeAt here with
    | .file _ => .error notFolder
    | .vacant => .error missing
    | .folder =>
      if name = "" ∨ name = "." then d.follow here rest
      else if name = ".." then d.follow here.dropLast rest
      else d.follow (here ++ [name]) rest

def resolve (d : Directory) (path : String) : Except String (List String) :=
  if '\x00' ∈ path.toList then .error "file name contained an unexpected NUL byte"
  else if path = "" ∨ path.toList.head? = some '/' then .error missing
  else d.follow [] (path.splitOn "/")

def read (d : Directory) (path : String) : Except String (List UInt8) := do
  let path ← d.resolve path
  match d.placeAt path with
  | .file bytes => .ok bytes
  | .folder => .error isFolder
  | .vacant => .error missing

def set (d : Directory) (path : List String) (bytes : List UInt8) : Directory where
  files := (path, bytes) :: d.files.filter (·.1 != path)

/-- Only a folder can be meant by a path that ends in a slash. -/
def create (d : Directory) (path : String) : Except String Directory := do
  let names := path.splitOn "/"
  if path ≠ "" ∧ names.getLast? = some "" then
    let _ ← d.resolve ("/".intercalate names.dropLast)
    .error isFolder
  let path ← d.resolve path
  match d.placeAt path with
  | .folder => .error isFolder
  | _ => .ok (d.set path [])

def append (d : Directory) (path : String) (bytes : List UInt8) : Except String Directory := do
  let old ← d.read path
  .ok (d.set (← d.resolve path) (old ++ bytes))

def ofList (files : List (String × List UInt8)) : Directory where
  files := files.map fun f => ((f.1.splitOn "/").filter fun name => name ≠ "" ∧ name ≠ ".", f.2)

end Directory

structure Session (α : Type) where
  entries : List Log.Entry := []
  printed : List UInt8 := []
  directory : Directory
  result : Except Failure α

def Script.perform {α : Type} : Script α → Directory → Session α
  | .done result, directory => { directory, result }
  | .log entries rest, d =>
    let s := rest.perform d
    { s with entries := entries ++ s.entries }
  | .read path next, d => (next (d.read path)).perform d
  | .create path next, d =>
    match d.create path with
    | .ok d => (next none).perform d
    | .error reason => (next (some reason)).perform d
  | .write none bytes next, d =>
    let s := (next none).perform d
    { s with printed := bytes ++ s.printed }
  | .write (some path) bytes next, d =>
    match d.append path bytes with
    | .ok d => (next none).perform d
    | .error reason => (next (some reason)).perform d

structure Answer where
  code : Nat
  printed : List UInt8 := []
  log : List String := []
  lines : List String := []
  directory : Directory

/-- The command with arguments in a directory. Wrong arguments have the exit code two. -/
def answer (args : List String) (directory : Directory) : Answer :=
  match Options.ofArguments args with
  | .error .version => { code := 0, printed := (versionLine ++ "\n").toUTF8.toList, directory }
  | .error .help => { code := 0, printed := (usage.flatMap fun l => (l ++ "\n").toUTF8.toList), directory }
  | .error .refused => { code := 2, directory }
  | .ok o =>
    let s := (command o).perform directory
    let ending := Ending.ofResult s.result
    { code := ending.code, printed := s.printed, log := (s.entries.filter o.logs).map (·.line), lines := ending.lines,
      directory := s.directory }

end EventTrace.CommandLine
