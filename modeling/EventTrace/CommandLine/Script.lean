import EventTrace.Fault
import EventTrace.Log
import EventTrace.Text.Quoted
/-! Work with files as a description: what it logs, what it asks for, and how it goes on after each answer. Who carries it
out gives the answers. A failure says what could not be done, and the causes from the nearest to the last. -/
namespace EventTrace.CommandLine

inductive Document
  | config
  | schema
  | strings
  deriving DecidableEq, Repr

def Document.name : Document → String
  | .config => "config"
  | .schema => "schema"
  | .strings => "strings"

inductive Failure
  | unreadable (document : Document) (path reason : String)
  | malformed (document : Document) (path : String)
  | uncreatable (path reason : String)
  | undecodable (path : String) (cause : Fault)
  deriving DecidableEq

namespace Failure

def context : Failure → String
  | .unreadable document path _ => s!"Failed to read {document.name} file: {Text.Quoted.quote path}"
  | .malformed document path => s!"Failed to parse {document.name} file: {Text.Quoted.quote path}"
  | .uncreatable path _ => s!"Failed to create output file: {Text.Quoted.quote path}"
  | .undecodable path _ => s!"Failed to decode trace: {Text.Quoted.quote path}"

/-- A fault of a source or a sink has the reason for it as its own cause. -/
def causes : Failure → List String
  | .unreadable _ _ reason => [reason]
  | .malformed _ _ => []
  | .uncreatable _ reason => [reason]
  | .undecodable _ cause =>
    match cause with
    | .transfer reason => [cause.message, reason]
    | .document reason => [cause.message, reason]
    | _ => [cause.message]

def causeLines (label : String) (cause : String) : List String :=
  match cause.splitOn "\n" with
  | [] => []
  | first :: rest => (label ++ first) :: rest.map (String.ofList (List.replicate label.length ' ') ++ ·)

def causeBlock : List String → List String
  | [cause] => causeLines "    " cause
  | causes => causes.zipIdx.flatMap fun e =>
    causeLines (String.ofList ((Nat.toDigits 10 e.2).leftpad 5 ' ') ++ ": ") e.1

def lines (f : Failure) : List String :=
  ("Error: " ++ f.context) ::
    (match f.causes with
    | [] => []
    | causes => "" :: "Caused by:" :: causeBlock causes)

end Failure

inductive Script (α : Type)
  | done (result : Except Failure α)
  | log (entries : List Log.Entry) (rest : Script α)
  /-- Asks for all bytes of a file, or why it cannot be read. -/
  | read (path : String) (next : Except String (List UInt8) → Script α)
  /-- Asks for an empty file in place of one that may be there; the answer is why there is none. -/
  | create (path : String) (next : Option String → Script α)
  /-- Adds bytes to a file, or prints them; the answer is why that failed. -/
  | write (target : Option String) (bytes : List UInt8) (next : Option String → Script α)

namespace Script

def andThen {α β : Type} : Script α → (α → Script β) → Script β
  | .done (.ok a), f => f a
  | .done (.error e), _ => .done (.error e)
  | .log entries rest, f => .log entries (rest.andThen f)
  | .read path next, f => .read path fun answer => (next answer).andThen f
  | .create path next, f => .create path fun answer => (next answer).andThen f
  | .write target bytes next, f => .write target bytes fun answer => (next answer).andThen f

instance : Monad Script where
  pure a := .done (.ok a)
  bind := andThen

def ofExcept {α : Type} (result : Except Failure α) : Script α := .done result

def say (entries : List Log.Entry) : Script Unit := .log entries (.done (.ok ()))

def bytes (path : String) : Script (Except String (List UInt8)) := .read path fun answer => .done (.ok answer)

def proceed (failure : String → Failure) : Option String → Script Unit
  | none => .done (.ok ())
  | some reason => .done (.error (failure reason))

def prepare : Option String → Script Unit
  | none => .done (.ok ())
  | some path => .create path (proceed (.uncreatable path))

def deliver (target : Option String) (bytes : List UInt8) (failure : String → Failure) : Script Unit :=
  .write target bytes (proceed failure)

end Script
end EventTrace.CommandLine
