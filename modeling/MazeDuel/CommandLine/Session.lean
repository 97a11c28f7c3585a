import MazeDuel.CommandLine.Options
import MazeDuel.Journal.Setup
import MazeDuel.Match.Runner
import MazeDuel.Match.Storage
/-!
Sessions: what the program does for its options. It plays one match without a player, or asks for a
server to be started.
-/

namespace MazeDuel.CommandLine

structure Server where
  host : String
  port : Int
  reload : Bool
  level : String
  deriving DecidableEq, Repr

inductive Ending where
  | served (server : Server)
  | played
  | failed (fault : Fault)

structure Session where
  /-- The records that are written; none if the file for them could not be opened. -/
  records : Option (List Record)
  ending : Ending

def logger : String := "main"

def Options.configFile (o : Options) : Option String :=
  match o.config with
  | some path => if path.isEmpty then none else some path
  | none => none

/-- The settings of the match: those of the file, or the standard ones. -/
def settings (file : Option (Except Fault String)) : Except Fault MatchConfig := do
  match file with
  | some text => MatchConfig.load (← text)
  | none => MatchConfig.standard (.whole 42)

def lastRecord (final : Frame) : Record :=
  let turns := final.state.turnNumber.plainText
  match final.state.winner with
  | some winner =>
    if final.done then
      ⟨.info, logger, "Winner: " ++ word winner ++ " after " ++ turns ++ " turn(s)"⟩
    else ⟨.info, logger, "No winner after " ++ turns ++ " turn(s)"⟩
  | none => ⟨.info, logger, "No winner after " ++ turns ++ " turn(s)"⟩

/-- Plays up to a number of turns and closes the match, whatever came of it. -/
def playOut (r : Runner) (maxTurns : Int) : Except Fault Unit × Runner :=
  r.asCaller fun r =>
    let (frames, r) := r.play (.whole maxTurns)
    let r := r.update (·.callOffAll Runner.tell)
    match frames with
    | .error fault => (.error fault, r)
    | .ok frames =>
      match frames.getLast? with
      | some final => (.ok (), r.update (·.update (·.record (lastRecord final))))
      | none => (.ok (), r)

def play (seeds : Json → Random.Twister) (config : MatchConfig) (maxTurns : Int) :
    Logged (Except Fault Unit) := do
  match ← Runner.make seeds config true with
  | .error fault => return .error fault
  | .ok r =>
    let (outcome, r) := playOut r maxTurns
    ⟨outcome, r.duel.journal.reverse⟩

def work (seeds : Json → Random.Twister) (o : Options) (file : Option (Except Fault String)) :
    Logged Ending :=
  if o.headless then
    match settings file with
    | .error fault => pure (.failed fault)
    | .ok config =>
      (fun outcome => match outcome with
        | .ok () => .played
        | .error fault => .failed fault) <$> play seeds config o.maxTurns
  else do
    Logged.note .info logger
      ("Starting maze duel API at http://" ++ o.host ++ ":" ++ toString o.port)
    return .served ⟨o.host, o.port, o.reload, String.ofList (o.logLevel.toList.map Char.toLower)⟩

def Options.journalRequest (o : Options) : JournalRequest :=
  { level := .text o.logLevel, documents := o.documents }

/-- A session for some options, given the text of the file with settings if they name one. -/
def run (seeds : Json → Random.Twister) (o : Options) (file : Option (Except Fault String)) :
    Session :=
  match Journal.openFile o.journalRequest, Journal.setUp o.journalRequest with
  | .error fault, _ => ⟨none, .failed fault⟩
  | .ok _, .error fault => ⟨some [], .failed fault⟩
  | .ok _, .ok journal =>
    let done := work seeds o file
    ⟨some (journal.written done.records), done.value⟩

end MazeDuel.CommandLine
