import EventTrace.Fault
import EventTrace.Log
/-! Work that logs, opens a source and writes a report, as the list of what it does. -/
namespace EventTrace

/-- Where a write belongs: into a JSON document, or anywhere else. Its failure is named after it. -/
inductive Part
  | plain
  | document
  deriving DecidableEq, Repr

def Part.fault (reason : String) : Part → Fault
  | .plain => .transfer reason
  | .document => .document reason

inductive Effect
  | entry (e : Log.Entry)
  | opened
  | wrote (part : Part) (text : String)
  deriving DecidableEq

structure Transcript (α : Type) where
  effects : List Effect
  result : Except Fault α

namespace Transcript

def andThen {α β : Type} (t : Transcript α) (f : α → Transcript β) : Transcript β :=
  match t.result with
  | .error e => ⟨t.effects, .error e⟩
  | .ok a => ⟨t.effects ++ (f a).effects, (f a).result⟩

instance : Monad Transcript where
  pure a := ⟨[], .ok a⟩
  bind := andThen

def ofExcept {α : Type} (result : Except Fault α) : Transcript α := ⟨[], result⟩

def log (entries : List Log.Entry) : Transcript Unit := ⟨entries.map .entry, .ok ()⟩

def opening : Transcript Unit := ⟨[.opened], .ok ()⟩

def write (part : Part) (text : String) : Transcript Unit := ⟨[.wrote part text], .ok ()⟩

end Transcript

structure Outcome (α : Type) where
  entries : List Log.Entry := []
  openings : Nat := 0
  /-- The bytes that the sink took. -/
  written : List UInt8 := []
  result : Except Fault α

namespace Outcome

variable {α : Type}

/-- Follows the effects into a sink with room for so many bytes, unlimited if absent. The first write that does not fit
fills the sink and fails, and nothing after it is done. -/
def follow (reason : String) (result : Except Fault α) : (room : Option Nat) → List Effect → Outcome α
  | _, [] => { result }
  | room, .entry e :: rest =>
    let o := follow reason result room rest
    { o with entries := e :: o.entries }
  | room, .opened :: rest =>
    let o := follow reason result room rest
    { o with openings := o.openings + 1 }
  | none, .wrote _ text :: rest =>
    let o := follow reason result none rest
    { o with written := text.toUTF8.toList ++ o.written }
  | some room, .wrote part text :: rest =>
    let bytes := text.toUTF8.toList
    if bytes.length ≤ room then
      let o := follow reason result (some (room - bytes.length)) rest
      { o with written := bytes ++ o.written }
    else { written := bytes.take room, result := .error (part.fault reason) }

end Outcome

def Transcript.outcome {α : Type} (t : Transcript α) (room : Option Nat) (reason : String) : Outcome α :=
  Outcome.follow reason t.result room t.effects

end EventTrace
