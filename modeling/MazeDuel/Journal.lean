/-!
Journal records: what an operation reports about itself besides its result. Operations return
their records as data; nothing here writes them anywhere.
-/

namespace MazeDuel

/-- The weight of a record; heavier records are wanted more often. -/
structure Level where
  weight : Int
  /-- Whether the weight was given as a truth value. -/
  isFlag : Bool := false
  deriving DecidableEq, Repr

namespace Level

def debug : Level := { weight := 10 }
def info : Level := { weight := 20 }
def warning : Level := { weight := 30 }

/-- The levels that have a name of their own, the usual name of a weight first. -/
def named : List (String × Int) :=
  [("CRITICAL", 50), ("ERROR", 40), ("WARNING", 30), ("INFO", 20), ("DEBUG", 10), ("NOTSET", 0),
    ("FATAL", 50), ("WARN", 30)]

def ofName? (name : String) : Option Level :=
  (named.find? (·.1 == name)).map fun entry => { weight := entry.2 }

def name (level : Level) : String :=
  match named.find? (·.2 == level.weight) with
  | some entry => entry.1
  | none => "Level " ++ if level.isFlag then "True" else toString level.weight

end Level

structure Record where
  level : Level
  logger : String
  message : String
  deriving DecidableEq, Repr

def Record.atLeast (level : Level) (records : List Record) : List Record :=
  records.filter fun record => level.weight ≤ record.level.weight

/-- A result together with the records made on the way to it, in order. -/
structure Logged (α : Type) where
  value : α
  records : List Record := []

namespace Logged

def note (level : Level) (logger message : String) : Logged Unit :=
  ⟨(), [⟨level, logger, message⟩]⟩

protected def pure (a : α) : Logged α := ⟨a, []⟩

protected def bind (x : Logged α) (f : α → Logged β) : Logged β :=
  let y := f x.value
  ⟨y.value, x.records ++ y.records⟩

instance : Monad Logged where
  pure := Logged.pure
  bind := Logged.bind

@[simp] theorem value_pure (a : α) : (pure a : Logged α).value = a := rfl

@[simp] theorem value_bind (x : Logged α) (f : α → Logged β) :
    (x >>= f).value = (f x.value).value :=
  rfl

@[simp] theorem value_map (f : α → β) (x : Logged α) : (f <$> x).value = f x.value := rfl

@[simp] theorem records_pure (a : α) : (pure a : Logged α).records = [] := rfl

@[simp] theorem records_bind (x : Logged α) (f : α → Logged β) :
    (x >>= f).records = x.records ++ (f x.value).records := rfl

end Logged

end MazeDuel
