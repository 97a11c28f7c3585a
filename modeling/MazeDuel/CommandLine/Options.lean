import MazeDuel.Number.Integer
/-!
Options of the command line. An option is named in full or by as much of its name as only it
begins with; its value follows it, or stands behind an equals sign.
-/

namespace MazeDuel.CommandLine

structure Options where
  host : String := "127.0.0.1"
  port : Int := 8000
  reload : Bool := false
  headless : Bool := false
  config : Option String := none
  maxTurns : Int := 20
  logLevel : String := "INFO"
  documents : Bool := false
  deriving DecidableEq, Repr

/-- Why the options lead to no work. -/
inductive Exit where
  | help
  | misuse
  deriving DecidableEq, Repr

def Exit.code : Exit → Nat
  | help => 0
  | misuse => 2

inductive Name where
  | help
  | host
  | port
  | reload
  | headless
  | config
  | maxTurns
  | logLevel
  | documents
  deriving DecidableEq, Repr

namespace Name

def spelled : List (String × Name) :=
  [("--help", help), ("--host", host), ("--port", port), ("--reload", reload),
    ("--headless", headless), ("--config", config), ("--max-turns", maxTurns),
    ("--log-level", logLevel), ("--json-logs", documents)]

def takesValue : Name → Bool
  | help | reload | headless | documents => false
  | host | port | config | maxTurns | logLevel => true

end Name

inductive Word where
  /-- An option, with the value behind its equals sign if there is one. -/
  | option (name : Name) (value : Option String)
  /-- The short form of the request for help, with more letters behind it. -/
  | shortHelp (tail : List Char)
  | unknown
  /-- Two dashes by themselves: no option comes after them. -/
  | separator
  | plain (text : String)
  deriving DecidableEq, Repr

/-- Whether a text is a negative number, which is never taken for an option. -/
def isNegativeNumber (text : List Char) : Bool :=
  match text with
  | '-' :: rest =>
    let rest := if rest.getLast? = some '\n' then rest.dropLast else rest
    let isDigit (c : Char) : Bool := (Text.digitValue? c).isSome
    let whole := rest.takeWhile isDigit
    match rest.drop whole.length with
    | [] => !whole.isEmpty
    | '.' :: places => !places.isEmpty && places.all isDigit
    | _ => false
  | _ => false

def splitValue (text : String) : String × Option String :=
  let chars := text.toList
  match chars.dropWhile (· ≠ '=') with
  | [] => (text, none)
  | _ :: value => (String.ofList (chars.takeWhile (· ≠ '=')), some (String.ofList value))

/-- What an argument that is no option is taken for. -/
def classifyOther (text : String) : Word :=
  if isNegativeNumber text.toList ∨ text.toList.contains ' ' then .plain text else .unknown

/-- What an argument is; a beginning that two options share is refused. -/
def classify (text : String) : Except Exit Word :=
  match text.toList with
  | ['-', '-'] => .ok .separator
  | ['-', 'h'] => .ok (.option .help none)
  | '-' :: '-' :: _ =>
    let (name, value) := splitValue text
    match Name.spelled.find? (·.1 == text), Name.spelled.find? (·.1 == name) with
    | some found, _ => .ok (.option found.2 none)
    | none, some found => .ok (.option found.2 value)
    | none, none =>
      match Name.spelled.filter fun known => known.1.startsWith name with
      | [] => .ok (classifyOther text)
      | [found] => .ok (.option found.2 value)
      | _ => .error .misuse
  | ['-'] => .ok (.plain text)
  | '-' :: 'h' :: tail => .ok (.shortHelp tail)
  | '-' :: _ => .ok (classifyOther text)
  | _ => .ok (.plain text)

/-- All arguments; behind a separator everything is plain. -/
def classifyAll : List String → Except Exit (List Word)
  | [] => .ok []
  | text :: rest => do
    match ← classify text with
    | .separator => return .separator :: rest.map .plain
    | word => return word :: (← classifyAll rest)

/-- The short form with more letters behind it, or with letters behind an equals sign: each of them
must be another request for help. -/
def shortHelp (tail : List Char) : Exit :=
  let letters := match tail with
    | '=' :: letters => letters
    | letters => letters
  if !letters.isEmpty && letters.all (· = 'h') then .help else .misuse

def readNumber (text : String) : Except Exit Int :=
  match Number.readInteger? text with
  | some n => .ok n
  | none => .error .misuse

def Options.setValue (o : Options) (value : String) : Name → Except Exit Options
  | .host => .ok { o with host := value }
  | .port => do return { o with port := ← readNumber value }
  | .config => .ok { o with config := some value }
  | .maxTurns => do return { o with maxTurns := ← readNumber value }
  | .logLevel => .ok { o with logLevel := value }
  | .help | .reload | .headless | .documents => .error .misuse

def Options.setFlag (o : Options) : Name → Except Exit Options
  | .help => .error .help
  | .reload => .ok { o with reload := true }
  | .headless => .ok { o with headless := true }
  | .documents => .ok { o with documents := true }
  | .host | .port | .config | .maxTurns | .logLevel => .error .misuse

/-- Takes the options one after the other; whether something was left over counts only at the end,
so that a request for help is heard before. -/
def Options.take (o : Options) (leftOver : Bool) : List Word → Except Exit Options
  | [] => if leftOver then .error .misuse else .ok o
  | .option name (some value) :: rest => do (← o.setValue value name).take leftOver rest
  | .option name none :: rest =>
    if name.takesValue then
      match rest with
      | .plain value :: rest => do (← o.setValue value name).take leftOver rest
      | _ => .error .misuse
    else do (← o.setFlag name).take leftOver rest
  | .shortHelp tail :: _ => .error (shortHelp tail)
  | .unknown :: rest => o.take true rest
  | .separator :: rest => o.take true rest
  | .plain _ :: rest => o.take true rest

def configVariable : String := "DUEL_MATCH_CONFIG"

def levelVariable : String := "DUEL_LOG_LEVEL"

def Options.parse (environment : String → Option String) (arguments : List String) :
    Except Exit Options := do
  let defaults : Options := {}
  let o := { defaults with
    config := environment configVariable
    logLevel := (environment levelVariable).getD defaults.logLevel }
  o.take false (← classifyAll arguments)

end MazeDuel.CommandLine
