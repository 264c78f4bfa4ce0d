import EventTrace.Text.Basic
/-! Blanks, line ends, comments and text of TOML documents. Text has escapes between double quotes and is as it stands
between single ones; three quotes enclose text of several lines. -/
namespace EventTrace.Toml

/-- Takes characters from the front of a list, or refuses it. -/
abbrev Scan (α : Type) := List Char → Option (α × List Char)

def isBlank (c : Char) : Bool := c == ' ' || c == '\t'

def skipBlanks (cs : List Char) : List Char := cs.dropWhile isBlank

/-- Characters of comments and of text between quotes: no control character but the tab. -/
def isPlain (c : Char) : Bool := c == '\t' || (0x20 ≤ c.toNat && c.toNat != 0x7F)

def lineEnd? : List Char → Option (List Char)
  | [] => some []
  | '\n' :: cs => some cs
  | '\r' :: '\n' :: cs => some cs
  | _ => none

def restOfLine? (cs : List Char) : Option (List Char) :=
  match skipBlanks cs with
  | '#' :: cs => lineEnd? (cs.dropWhile isPlain)
  | cs => lineEnd? cs

def skipTrivia : (inComment : Bool) → List Char → Option (List Char)
  | _, '\n' :: cs => skipTrivia false cs
  | _, '\r' :: '\n' :: cs => skipTrivia false cs
  | true, c :: cs => if isPlain c then skipTrivia true cs else none
  | true, [] => none
  | false, '#' :: cs => skipTrivia true cs
  | false, c :: cs => if isBlank c then skipTrivia false cs else some (c :: cs)
  | false, [] => some []

def escape? : Char → Option Char
  | 'b' => some '\x08'
  | 't' => some '\t'
  | 'n' => some '\n'
  | 'f' => some '\x0c'
  | 'r' => some '\r'
  | '"' => some '"'
  | '\\' => some '\\'
  | _ => none

def coded? (digits : List Char) : Option Char :=
  let n := Text.digitsValue 16 digits
  if digits.all Text.isHexDigit && n.isValidChar then some (Char.ofNat n) else none

def basicText : Scan (List Char)
  | '"' :: cs => some ([], cs)
  | '\\' :: 'u' :: a :: b :: c :: d :: cs => do
    let x ← coded? [a, b, c, d]
    let (text, rest) ← basicText cs
    pure (x :: text, rest)
  | '\\' :: 'U' :: a :: b :: c :: d :: e :: f :: g :: h :: cs => do
    let x ← coded? [a, b, c, d, e, f, g, h]
    let (text, rest) ← basicText cs
    pure (x :: text, rest)
  | '\\' :: c :: cs => do
    let x ← escape? c
    let (text, rest) ← basicText cs
    pure (x :: text, rest)
  | c :: cs => do
    if !isPlain c then none
    let (text, rest) ← basicText cs
    pure (c :: text, rest)
  | [] => none

def literalText : Scan (List Char)
  | '\'' :: cs => some ([], cs)
  | c :: cs => do
    if !isPlain c then none
    let (text, rest) ← literalText cs
    pure (c :: text, rest)
  | [] => none

def endsLine (cs : List Char) : Bool :=
  match skipBlanks cs with
  | '\n' :: _ => true
  | '\r' :: '\n' :: _ => true
  | _ => false

/-- Text up to three double quotes; up to two more belong to the text. After a backslash at the end of a line blanks
and line ends are passed over (`skipping`). Every line end is read as a line feed. -/
def basicLines : (skipping : Bool) → Scan (List Char)
  | _, '"' :: '"' :: '"' :: '"' :: '"' :: cs => some (['"', '"'], cs)
  | _, '"' :: '"' :: '"' :: '"' :: cs => some (['"'], cs)
  | _, '"' :: '"' :: '"' :: cs => some ([], cs)
  | skipping, '\n' :: cs => do
    let (text, rest) ← basicLines skipping cs
    pure (if skipping then text else '\n' :: text, rest)
  | skipping, '\r' :: '\n' :: cs => do
    let (text, rest) ← basicLines skipping cs
    pure (if skipping then text else '\n' :: text, rest)
  | _, '\\' :: 'u' :: a :: b :: c :: d :: cs => do
    let x ← coded? [a, b, c, d]
    let (text, rest) ← basicLines false cs
    pure (x :: text, rest)
  | _, '\\' :: 'U' :: a :: b :: c :: d :: e :: f :: g :: h :: cs => do
    let x ← coded? [a, b, c, d, e, f, g, h]
    let (text, rest) ← basicLines false cs
    pure (x :: text, rest)
  | _, '\\' :: c :: cs =>
    if endsLine (c :: cs) then basicLines true (c :: cs)
    else do
      let x ← escape? c
      let (text, rest) ← basicLines false cs
      pure (x :: text, rest)
  | skipping, c :: cs => do
    if !isPlain c then none
    if skipping && isBlank c then basicLines true cs
    else
      let (text, rest) ← basicLines false cs
      pure (c :: text, rest)
  | _, [] => none

/-- Text up to three single quotes; up to two more belong to the text. Every line end is read as a line feed. -/
def literalLines : Scan (List Char)
  | '\'' :: '\'' :: '\'' :: '\'' :: '\'' :: cs => some (['\'', '\''], cs)
  | '\'' :: '\'' :: '\'' :: '\'' :: cs => some (['\''], cs)
  | '\'' :: '\'' :: '\'' :: cs => some ([], cs)
  | '\n' :: cs => do
    let (text, rest) ← literalLines cs
    pure ('\n' :: text, rest)
  | '\r' :: '\n' :: cs => do
    let (text, rest) ← literalLines cs
    pure ('\n' :: text, rest)
  | c :: cs => do
    if !isPlain c then none
    let (text, rest) ← literalLines cs
    pure (c :: text, rest)
  | [] => none

/-- A line end right behind the opening quotes does not belong to the text. -/
def dropLineEnd : List Char → List Char
  | '\n' :: cs => cs
  | '\r' :: '\n' :: cs => cs
  | cs => cs

def text : Scan String := fun cs =>
  let chars := match cs with
    | '"' :: '"' :: '"' :: cs => basicLines false (dropLineEnd cs)
    | '\'' :: '\'' :: '\'' :: cs => literalLines (dropLineEnd cs)
    | '"' :: cs => basicText cs
    | '\'' :: cs => literalText cs
    | _ => none
  chars.map fun (text, rest) => (String.ofList text, rest)

end EventTrace.Toml
