import MazeDuel.Journal
import MazeDuel.Journal.Stamp
import MazeDuel.Journal.Template
import MazeDuel.Json.Printer
/-!
Lines of a journal: a record as plain text or as a one-line document.
-/

namespace MazeDuel

/-- Blanks behind a text up to a given length. -/
def padRight (width : Nat) (text : String) : String :=
  text ++ String.ofList (List.replicate (width - text.length) ' ')

namespace Record

def levelWidth : Nat := 7

def plainLine (r : Record) : String :=
  padRight levelWidth r.level.name ++ " " ++ r.logger ++ ": " ++ r.message ++ "\n"

def toJson (r : Record) : Json :=
  .object [("level", .text r.level.name), ("logger", .text r.logger), ("message", .text r.message)]

end Record

/-- An entry that is not yet put into words: a template with its values, and further members. -/
structure Entry where
  created : Json
  level : Json
  logger : Json
  template : Json
  values : Template.Supply
  extra : List (String × Json) := []

namespace Entry

/-- The name of a failure that is attached to an entry. -/
def failureName : String := "exc_info"

/-- Names that stand for parts of an entry and are never further members. -/
def reserved : List String :=
  ["name", "msg", "args", "levelname", "levelno", "pathname", "filename", "module", "exc_info",
    "exc_text", "stack_info", "lineno", "funcName", "created", "msecs", "relativeCreated",
    "thread", "threadName", "processName", "process", "message", "asctime"]

/-- The message; without values the template is the message. -/
def message (e : Entry) : Except Fault String :=
  if e.values.values.isEmpty then .ok e.template.plainText
  else Template.render e.template.plainText e.values

def stamp (e : Entry) : Except Fault String :=
  match Quantity.ofJson? e.created with
  | some q => Stamp.ofQuantity q
  | none => .error .wrongType

/-- An entry whose parts are replaced by the further members that are named like them. -/
def override (e : Entry) (member : String × Json) : Entry :=
  match member.1 with
  | "name" => { e with logger := member.2 }
  | "msg" => { e with template := member.2 }
  | "levelname" => { e with level := member.2 }
  | "created" => { e with created := member.2 }
  | "args" => { e with values := .ofValue member.2 }
  | _ => e

/-- The member for a failure that is attached to an entry: its kind, the failure itself and where it
arose, in a row. No document is a failure, so that only a row without one can be described. -/
def failureMember (value : Json) : Except Fault (List (String × Json)) :=
  if !value.isPresent then .ok []
  else
    match value with
    | .list (_ :: .null :: .null :: _) => .ok [(failureName, .text "NoneType: None")]
    | .list (_ :: _ :: _ :: _) => .error .noMembers
    | .list _ => .error .noSuchItem
    | .text text => .error (if text.length < 3 then .noSuchItem else .noMembers)
    | .object _ => .error (.noItem 2)
    | _ => .error .wrongType

def documentLine (e : Entry) : Except Fault String := do
  let e := e.extra.foldl override e
  let stamp ← e.stamp
  let message ← e.message
  let members := e.extra.filter fun member =>
    !reserved.contains member.1 && !member.1.startsWith "_"
  let failure ← failureMember ((Json.object e.extra).findD failureName .null)
  let document := Json.ofMembers ([("ts", .text stamp), ("level", e.level), ("logger", e.logger),
    ("message", .text message)] ++ members ++ failure)
  return document.print .spaced

end Entry

end MazeDuel
