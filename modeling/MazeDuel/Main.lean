import MazeDuel.CommandLine.Session
import MazeDuel.Journal.Line
import MazeDuel.Service
/-!
The program: reads its options and plays a match without a player, or serves one to requests that
come in line by line. A request is a list of its route and its body; the answer is one line.
-/

namespace MazeDuel

open CommandLine

def usage : String :=
  "usage: [-h] [--host HOST] [--port PORT] [--reload] [--headless] [--config CONFIG] " ++
    "[--max-turns MAX_TURNS] [--log-level LOG_LEVEL] [--json-logs]"

def journalFolder : String := "storage/logs"

def shownRecord (o : Options) (r : Record) : String :=
  if o.documents then r.toJson.print .spaced ++ "\n" else r.plainLine

def writeRecords (o : Options) (records : List Record) : IO Unit := do
  let text := String.join (records.map (shownRecord o))
  IO.eprint text
  IO.FS.createDirAll journalFolder
  let file ← IO.FS.Handle.mk (journalFolder ++ "/duel.log") .append
  file.putStr text

def readSettingsFile (path : String) : IO (Except Fault String) := do
  try
    return .ok (← IO.FS.readFile path)
  catch _ =>
    return .error .noSuchFile

def answerLine : Except Fault (Response Json) → Json
  | .ok (.done body) => .object [("status", .whole 200), ("body", body)]
  | .ok (.refused reason) =>
    .object [("status", .whole 400), ("detail", Json.ofOption .text reason)]
  | .ok .invalid => .object [("status", .whole 422)]
  | .error fault => .object [("status", .whole 500), ("detail", Json.ofOption .text fault.message)]

def serveLine (seeds : Json → Random.Twister) (s : Service) (line : String) :
    Logged (Json × Service) :=
  match Json.parse line with
  | .ok (.list [.text route, body]) =>
    (fun answered => (answerLine answered.1, answered.2)) <$> s.serve .strict seeds route body
  | _ => pure (answerLine (.ok .invalid), s)

/-- A generator that is drawn anew stands in for all seeds that do not name one. -/
def drawSeeds : IO (Json → Random.Twister) := do
  let drawn ← IO.rand 0 0xFFFFFFFFFFFFFFFF
  return fun _ => .ofSeed drawn

partial def serve (o : Options) (s : Service) (then_ : Nat) : IO Unit := do
  let line ← (← IO.getStdin).getLine
  if line.isEmpty then return
  let now ← IO.monoMsNow
  let passed ← pure (s.advance (Float.ofNat (now - then_) / 1000))
  let answered := serveLine (← drawSeeds) passed.value line
  writeRecords o (passed.records ++ answered.records)
  IO.println (answered.value.1.print .compact)
  serve o answered.value.2 now

def runProgram (arguments : List String) : IO UInt32 := do
  let config ← IO.getEnv configVariable
  let level ← IO.getEnv levelVariable
  let environment := fun name =>
    if name == configVariable then config else if name == levelVariable then level else none
  match Options.parse environment arguments with
  | .error exit =>
    IO.println usage
    return exit.code.toUInt32
  | .ok o =>
    let file ← match o.configFile with
      | some path => some <$> readSettingsFile path
      | none => pure none
    let session := CommandLine.run (← drawSeeds) o file
    writeRecords o (session.records.getD [])
    match session.ending with
    | .played => return 0
    | .served _ =>
      serve o {} (← IO.monoMsNow)
      return 0
    | .failed fault =>
      IO.eprintln (fault.message.getD "the match could not be played")
      return 1

end MazeDuel

def main (arguments : List String) : IO UInt32 := MazeDuel.runProgram arguments
