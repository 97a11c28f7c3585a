import MazeDuel.Match.Hall
/-!
The service: one match at a time, played by requests from outside. A request is read in full before
anything is done for it. What a field of a request is read as, and how an answer is put into the
form in which it leaves, is up to the framework around the service.
-/

namespace MazeDuel

open Turn

/-- What the framework takes the fields of a request for, if they are what they are declared as, and
how it renders the body of an answer. -/
structure Framework (Output : Type) where
  text : Json → Option String
  flag : Json → Option Bool
  /-- A document, or null. -/
  document : Json → Option Json
  number : Json → Option Json
  render : Json → Except Fault Output

/-- A framework that takes nothing but what a field is declared as, and renders every answer. -/
def Framework.strict : Framework Json where
  text
    | .text text => some text
    | _ => none
  flag
    | .bool flag => some flag
    | _ => none
  document
    | .object members => some (.object members)
    | .null => some .null
    | _ => none
  number
    | .whole n => some (.whole n)
    | _ => none
  render := .ok

inductive Call where
  | start (settings : Json)
  | script (player text : String)
  | edit (player : String) (editing : Bool)
  | execute (player : String) (wait : Bool)
  | continuous (on : Bool)
  | status
  | events (since : Json)

inductive Response (Body : Type) where
  | done (body : Body)
  /-- The request cannot be met, for a reason that may have no text. -/
  | refused (reason : Option String)
  | invalid

namespace Call

variable {Output : Type} (framework : Framework Output)

def optional (body : Json) (key : String) (fallback : α) (read : Json → Option α) : Option α :=
  match body.find? key with
  | none => some fallback
  | some value => read value

def read (route : String) (body : Json) : Option Call :=
  match body with
  | .object _ =>
    let text (key : String) : Option String := body.find? key >>= framework.text
    match route with
    | "/start" => do return start (← optional body "match" .null framework.document)
    | "/script" => do return script (← text "player") (← text "script")
    | "/edit" => do
      return edit (← text "player") (← optional body "editing" true framework.flag)
    | "/execute" => do
      return execute (← text "player") (← optional body "wait" false framework.flag)
    | "/continuous" => do return continuous (← body.find? "enabled" >>= framework.flag)
    | "/status" => some status
    | "/events" => do return events (← optional body "since" (.whole 0) framework.number)
    | _ => none
  | _ => none

end Call

structure Service where
  clock : Float := 0
  hall : Option Hall := none

namespace Service

def logger : String := "api.app"

def active (s : Service) : Option Runner := s.hall.map (·.active)

def withMembers (members : List (String × Json)) (document : Json) : Json :=
  match document with
  | .object more => Json.ofMembers (members ++ more)
  | other => other

def report (r : Runner) (members : List (String × Json)) : Except Fault (Response Json) := do
  return .done (withMembers members (← (r.frame none []).toJson))

/-- The answer to a request that only changes the standing of the turn. -/
def standing (r : Runner) (success : Bool) : Except Fault (Response Json) :=
  .ok (.done (.object [("success", .bool success), ("state", r.duel.state.toJson)]))

def asPlayer (h : Hall) (player : String)
    (f : Player → Except Fault (Response Json) × Hall) : Except Fault (Response Json) × Hall :=
  match Player.ofJson (.text player) with
  | .ok p => f p
  | .error fault => (.ok (.refused fault.message), h)

/-- Asks the duel for something and answers with the standing after it. -/
def request (h : Hall) (f : Duel → Except Fault Bool × Duel) :
    Except Fault (Response Json) × Hall :=
  h.ask fun r =>
    let (taken, c) := r.coordinator.onDuel f
    let r := { r with coordinator := c }
    (taken >>= standing r, r)

/-- What is answered to someone who has waited for a run. -/
def executed (r : Runner) (id : Nat) : Except Fault (Response Json) :=
  match r.duel.outcome? id with
  | some (.done (some result)) =>
    report r [("success", .bool true), ("execution", result.toJson)]
  | some (.failed fault) => .error fault
  | _ => standing r true

def execute (h : Hall) (p : Player) (wait : Bool) : Except Fault (Response Json) × Hall :=
  let (accepted, h) := h.ask fun r =>
    let (accepted, c) := r.coordinator.onDuel (·.execute p)
    (accepted, { r with coordinator := c })
  match accepted && wait, h.active.duel.execution with
  | true, some id =>
    let h := h.awaitTask id
    (executed h.active id, h)
  | _, _ => (standing h.active accepted, h)

def eventsSince (r : Runner) (since : Json) : Except Fault (Response Json) := do
  if (← since.toQuantity).below 0 then
    return .refused (some ("'since' cannot be negative: " ++ since.plainText))
  return .done (.object [
    ("events", .list ((← r.duel.log.sinceGiven since).map Notification.toJson)),
    ("next", .whole r.duel.log.size)])

/-- A call on the match that is active, as the caller. -/
def onActive (h : Hall) : Call → Except Fault (Response Json) × Hall
  | .start _ => (.ok .invalid, h)
  | .script player text => asPlayer h player fun p => request h (·.setScript p (.text text))
  | .edit player editing => asPlayer h player fun p =>
    request h fun d => Prod.map .ok id (if editing then d.beginEditing p else d.endEditing p)
  | .execute player wait => asPlayer h player fun p => execute h p wait
  | .continuous on => request h fun d => (.ok true, d.setContinuous on)
  | .status => (report h.active [("active", .bool true)], h)
  | .events since => (eventsSince h.active since, h)

def withHall (h : Hall) : Logged Service :=
  (fun h => ⟨h.active.now, some h⟩) <$> h.handOut

def closeActive (s : Service) : Logged Service :=
  match s.hall with
  | none => pure s
  | some h => withHall (h.asCaller fun h => ((), h.update (·.update (·.callOffAll Runner.tell)))).2

/-- The hall in which a new match is played. -/
def welcome (s : Service) (r : Runner) : Hall :=
  match s.hall with
  | none => { active := r.setNow s.clock }
  | some h => h.replace r

/-- The settings of a request for a new match. None at all stand for the defaults. -/
def requested (settings : Json) : Except Fault MatchConfig :=
  MatchConfig.ofJson (if settings.isPresent then settings else .object [])

/-- Starts a match in place of the active one. Settings that cannot be read change nothing; the
active match is closed before the new one is built. -/
def start (seeds : Json → Random.Twister) (s : Service) (settings : Json) :
    Logged (Except Fault (Response Json) × Service) :=
  match requested settings with
  | .error fault => pure (.ok (.refused fault.message), s)
  | .ok config => do
    let s ← s.closeActive
    match ← Runner.make seeds config false with
    | .error fault => return (.error fault, s)
    | .ok r =>
      let record : Record := ⟨.info, logger, "Started match " ++ config.display⟩
      let h := (s.welcome r).update fun r => r.start.2.update (·.update (·.record record))
      let answer := report h.active [("success", .bool true)]
      let s ← withHall h.drain
      return (answer, s)

def call (seeds : Json → Random.Twister) (s : Service) :
    Call → Logged (Except Fault (Response Json) × Service)
  | .start settings => s.start seeds settings
  | .status =>
    match s.hall with
    | none => pure (.ok (.done (.object [("active", .bool false)])), s)
    | some h => do
      let (answer, h) := h.asCaller (onActive · .status)
      return (answer, ← withHall h)
  | other =>
    match s.hall with
    | none => pure (.ok (.refused (some "No active match")), s)
    | some h => do
      let (answer, h) := h.asCaller (onActive · other)
      return (answer, ← withHall h)

variable {Output : Type} (framework : Framework Output) (seeds : Json → Random.Twister)

/-- What is done for a request. -/
def handle (s : Service) (route : String) (body : Json) :
    Logged (Except Fault (Response Json) × Service) :=
  match Call.read framework route body with
  | some call => s.call seeds call
  | none => pure (.ok .invalid, s)

def rendered : Response Json → Except Fault (Response Output)
  | .done body => .done <$> framework.render body
  | .refused reason => .ok (.refused reason)
  | .invalid => .ok .invalid

/-- A request up to the answer that leaves. An answer that cannot be rendered is lost, but what was
done for the request stays done. -/
def serve (s : Service) (route : String) (body : Json) :
    Logged (Except Fault (Response Output) × Service) :=
  (fun (answer, s) => (answer >>= rendered framework, s)) <$>
    s.handle framework seeds route body

def advance (s : Service) (seconds : Float) : Logged Service :=
  match s.hall with
  | none => pure { s with clock := s.clock + seconds }
  | some h => withHall (h.advance seconds)

end Service

end MazeDuel
