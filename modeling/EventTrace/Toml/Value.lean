import EventTrace.Toml.Number
import EventTrace.Toml.Table
import EventTrace.Toml.Text
/-! Keys and values of TOML documents. -/
namespace EventTrace.Toml

def isKeyChar (c : Char) : Bool := c.isAlphanum || c == '_' || c == '-'

def simpleKey : Scan String
  | '"' :: cs => (basicText cs).map fun (t, rest) => (String.ofList t, rest)
  | '\'' :: cs => (literalText cs).map fun (t, rest) => (String.ofList t, rest)
  | cs =>
    match cs.takeWhile isKeyChar with
    | [] => none
    | key => some (String.ofList key, cs.dropWhile isKeyChar)

def dottedKeys : (fuel : Nat) → Scan (List String)
  | 0, _ => none
  | fuel + 1, cs => do
    let (key, cs) ← simpleKey (skipBlanks cs)
    match skipBlanks cs with
    | '.' :: cs =>
      let (keys, cs) ← dottedKeys fuel cs
      pure (key :: keys, cs)
    | cs => pure ([key], cs)

/-- Nesting of values and of keys ends before this. -/
def depthLimit : Nat := 80

def keyPath : Scan (List String × String) := fun cs => do
  let (keys, rest) ← dottedKeys (depthLimit - 1) cs
  match keys.getLast? with
  | some key => pure ((keys.dropLast, key), rest)
  | none => none

def scalar : Scan Datum
  | 't' :: 'r' :: 'u' :: 'e' :: cs => some (.bool true, cs)
  | 'f' :: 'a' :: 'l' :: 's' :: 'e' :: cs => some (.bool false, cs)
  | '"' :: cs => (text ('"' :: cs)).map fun (t, rest) => (.text t, rest)
  | '\'' :: cs => (text ('\'' :: cs)).map fun (t, rest) => (.text t, rest)
  | cs => (moment cs).orElse fun _ => number cs

def elements (item : Scan Datum) : (fuel : Nat) → Scan (List Datum)
  | 0, _ => none
  | fuel + 1, cs => do
    match ← skipTrivia false cs with
    | ']' :: cs => pure ([], cs)
    | cs =>
      let (d, cs) ← item cs
      match ← skipTrivia false cs with
      | ',' :: cs =>
        let (ds, cs) ← elements item fuel cs
        pure (d :: ds, cs)
      | ']' :: cs => pure ([d], cs)
      | _ => none

def pair (item : Scan Datum) : Scan ((List String × String) × Datum) := fun cs => do
  let (path, cs) ← keyPath cs
  match cs with
  | '=' :: cs =>
    let (d, cs) ← item (skipBlanks cs)
    pure ((path, d), cs)
  | _ => none

/-- The pairs of a table up to its closing brace, at least one, all on one line. -/
def pairs (item : Scan Datum) : (fuel : Nat) → Entries → Scan Entries
  | 0, _, _ => none
  | fuel + 1, es, cs => do
    let ((path, d), cs) ← pair item cs
    let es ← es.add path.1 path.2 (.value d)
    match skipBlanks cs with
    | ',' :: cs => pairs item fuel es cs
    | '\x7d' :: cs => pure (es, cs)
    | _ => none

def inlineTable (item : Scan Datum) : Scan Datum := fun cs =>
  match skipBlanks cs with
  | '\x7d' :: cs => some (.table [], cs)
  | cs => do
    let (es, rest) ← pairs item cs.length [] cs
    pure (.table (Entries.data es), rest)

def value : (levels : Nat) → Scan Datum
  | 0, cs => scalar cs
  | levels + 1, '[' :: cs => do
    let (ds, rest) ← elements (value levels) (cs.length + 1) cs
    pure (.list ds, rest)
  | levels + 1, '\x7b' :: cs => inlineTable (value levels) cs
  | _, cs => scalar cs

end EventTrace.Toml
