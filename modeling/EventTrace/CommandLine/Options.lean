import EventTrace.Run.Pass
/-! The options of the command and how they are given. Arguments are taken from left to right; the first that asks for an
answer of its own, or is wrong, decides. -/
namespace EventTrace.CommandLine

structure Options where
  log : Option String := none
  schemas : List String := []
  strings : Option String := none
  output : Option String := none
  statisticsFirst : Bool := false
  statisticsOnly : Bool := false
  format : Option Format := none
  level : Option String := none
  configuration : Option String := none
  verbosity : Nat := 0
  quiet : Bool := false

inductive Interruption
  | version
  | help
  | refused
  deriving DecidableEq, Repr

inductive Flag
  | begin
  | statistic
  | verbose
  | quiet
  | version
  | help
  deriving DecidableEq, Repr

inductive Parameter
  | include
  | strings
  | output
  | format
  | level
  | config
  deriving DecidableEq, Repr

inductive Switch
  | flag (f : Flag)
  | parameter (p : Parameter)
  deriving DecidableEq, Repr

namespace Switch

def named : List (String × Char × Switch) :=
  [("include", 'I', .parameter .include), ("strings", 'a', .parameter .strings),
    ("output", 'o', .parameter .output), ("begin", 'b', .flag .begin), ("statistic", 's', .flag .statistic),
    ("format", 'f', .parameter .format), ("level", 'l', .parameter .level), ("config", 'c', .parameter .config),
    ("verbose", 'v', .flag .verbose), ("quiet", 'q', .flag .quiet), ("version", 'V', .flag .version),
    ("help", 'h', .flag .help)]

def ofName? (name : String) : Option Switch := (named.find? (·.1 == name)).map (·.2.2)

def ofLetter? (letter : Char) : Option Switch := (named.find? (·.2.1 == letter)).map (·.2.2)

end Switch

namespace Options

def once {α : Type} (given : Option α) (a : α) : Except Interruption (Option α) :=
  match given with
  | none => .ok (some a)
  | some _ => .error .refused

def raise (given : Bool) : Except Interruption Bool := if given then .error .refused else .ok true

def file (s : String) : Except Interruption String := if s = "" then .error .refused else .ok s

def setFlag (o : Options) : Flag → Except Interruption Options
  | .begin => do pure { o with statisticsFirst := ← raise o.statisticsFirst }
  | .statistic => do pure { o with statisticsOnly := ← raise o.statisticsOnly }
  | .verbose => .ok { o with verbosity := o.verbosity + 1 }
  | .quiet => do pure { o with quiet := ← raise o.quiet }
  | .version => .error .version
  | .help => .error .help

def setParameter (o : Options) (value : String) : Parameter → Except Interruption Options
  | .include => do pure { o with schemas := o.schemas ++ [← file value] }
  | .strings => do pure { o with strings := ← once o.strings (← file value) }
  | .output => do pure { o with output := ← once o.output (← file value) }
  | .format =>
    match Format.ofName? value with
    | none => .error .refused
    | some f => do pure { o with format := ← once o.format f }
  | .level => do pure { o with level := ← once o.level value }
  | .config => do pure { o with configuration := ← once o.configuration (← file value) }

def setLog (o : Options) (value : String) : Except Interruption Options := do
  pure { o with log := ← once o.log (← file value) }

/-- Letters after one dash. The rest behind an option with a value is its value, without a leading `=`; if there is no
rest, the next argument is. -/
def letters (o : Options) : List Char → Except Interruption (Options × Option Parameter)
  | [] => .ok (o, none)
  | c :: cs =>
    match Switch.ofLetter? c with
    | none => .error .refused
    | some (.flag f) => do letters (← o.setFlag f) cs
    | some (.parameter p) =>
      match cs with
      | [] => .ok (o, some p)
      | '=' :: value => do pure (← o.setParameter (String.ofList value) p, none)
      | value => do pure (← o.setParameter (String.ofList value) p, none)

def word (o : Options) (cs : List Char) : Except Interruption (Options × Option Parameter) :=
  let name := String.ofList (cs.takeWhile (· != '='))
  match Switch.ofName? name, cs.dropWhile (· != '=') with
  | some (.flag f), [] => do pure (← o.setFlag f, none)
  | some (.parameter p), [] => .ok (o, some p)
  | some (.parameter p), _ :: value => do pure (← o.setParameter (String.ofList value) p, none)
  | _, _ => .error .refused

/-- A lone dash is a name like any other. -/
def isValue : List Char → Bool
  | '-' :: _ :: _ => false
  | _ => true

/-- Takes in the arguments. After `--` there are no more options. -/
def takeAll (o : Options) : List String → Except Interruption Options
  | [] => .ok o
  | arg :: rest =>
    match arg.toList with
    | ['-', '-'] => rest.foldlM setLog o
    | '-' :: c :: cs =>
      match if c = '-' then o.word cs else o.letters (c :: cs) with
      | .error e => .error e
      | .ok (o, none) => takeAll o rest
      | .ok (o, some p) =>
        match rest with
        | [] => .error .refused
        | value :: rest =>
          if isValue value.toList then
            match o.setParameter value p with
            | .error e => .error e
            | .ok o => takeAll o rest
          else .error .refused
    | _ =>
      match o.setLog arg with
      | .error e => .error e
      | .ok o => takeAll o rest

def ofArguments (args : List String) : Except Interruption Options := takeAll {} args

end Options
end EventTrace.CommandLine
