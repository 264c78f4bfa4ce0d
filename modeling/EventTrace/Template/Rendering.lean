import EventTrace.Expression.Evaluation
import EventTrace.Schema.Basic
import EventTrace.Schema.Typedef
import EventTrace.Template.Segment
import EventTrace.Text.Basic
import EventTrace.Text.Utf8
/-! The text of a record: its template with every directive filled in. One directive that fails fails the record. -/
namespace EventTrace

def Context.nameOf (ctx : Context) (expression reference : String) : Except RenderFault String := do
  let v ← ctx.evaluate expression
  (ctx.typedefs.resolve v.toInt64 reference).mapError .name

def Segment.render (resolver : Resolver) (ctx : Context) : Segment → Except RenderFault String
  | .text s => .ok s
  | .percent | .lonePercent => .ok "%"
  | .letter c => .ok (String.singleton c)
  | .value d none => d.render resolver .zero
  | .value d (some expression) => do d.render resolver (← ctx.evaluate expression)
  | .name expression reference => ctx.nameOf expression reference
  | .openName expression reference => do
    let _ ← ctx.evaluate expression
    .error (.form (.openReference reference))
  | .malformed cause => .error (.form cause)

def renderSegments (resolver : Resolver) (ctx : Context) : List Segment → Except RenderFault String
  | [] => .ok ""
  | s :: rest => do
    let text ← s.render resolver ctx
    pure (text ++ (← renderSegments resolver ctx rest))

def renderTemplate (resolver : Resolver) (ctx : Context) (template : String) : Except RenderFault String :=
  renderSegments resolver ctx (segments template.toList)

namespace Record

def context (typedefs : TypedefTable) (e : EventDefinition) (r : Record) : Context where
  operands := r.operands
  bindings := e.bindings
  typedefs := typedefs

/-- The text of a record. What the traced program printed is shown as it is, with escapes; another record follows its
definition, or shows its payload if it has none. -/
def render (resolver : Resolver) (typedefs : TypedefTable) (definition : Option EventDefinition) (r : Record) :
    Except RenderFault String :=
  match r.printed? with
  | some bytes => .ok (String.ofList (Text.Escape.encode (Text.Utf8.decodeLossy bytes)))
  | none =>
    match definition with
    | some e => renderTemplate resolver (r.context typedefs e) e.template
    | none => .ok r.payload.text

end Record
end EventTrace
