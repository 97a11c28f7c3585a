import MazeDuel.Json.Printer
import MazeDuel.Journal.Setup
import MazeDuel.Json.Reader
import MazeDuel.Match.Config
/-!
Stored settings: the text of a file with the settings of a match, and where it is kept.
-/

namespace MazeDuel.MatchConfig

/-- The folder for files that are given no name. -/
def storageFolder : String := "storage/matches"

def stampedPath (stamp : String) : String := storageFolder ++ "/match_" ++ stamp ++ ".json"

/-- The parts of a path, without the empty ones and those that stay in place. -/
def pathParts (path : String) : List String :=
  ((path.splitOn "/").filter fun part => !part.isEmpty && part != ".")

def checkNames (names : List String) : Except Fault Unit := do
  if names.any fun name => name.toList.any (·.toNat = 0) then throw .badName
  if names.any (Journal.maxName < ·.utf8ByteSize) then throw .nameTooLong

/-- A path in its plain form. Its names must be possible, those of the folders first, and it must
name a file. -/
def filePath (path : String) : Except Fault String := do
  let parts := pathParts path
  checkNames parts.dropLast
  checkNames parts
  match parts.getLast? with
  | none | some ".." => throw .isFolder
  | some _ => return "/".intercalate parts

/-- Why there is no file to be read at a path where nothing was stored: only the folders above are
there. -/
def absent (path : String) : Fault :=
  match filePath path with
  | .error .isFolder => if (pathParts path).all (· == "..") then .isFolder else .noSuchFile
  | .error fault => fault
  | .ok _ => .noSuchFile

/-- Indents are counted up to this number. -/
def maxIndent : Int := 0x8000000000000000

/-- How the text of a file is laid out: each level is set in by a text or by a number of blanks;
without an indent the text is one line. -/
def layout : Json → Except Fault Json.Style
  | .null => .ok .spaced
  | .text unit => .ok (.indented unit)
  | width => do
    let width ← width.toInt
    if maxIndent ≤ width then throw .numberTooLarge
    return .indented (String.ofList (List.replicate width.toNat ' '))

/-- The text of a file with the settings. It is reported where it goes before it is laid out. -/
def save (c : MatchConfig) (path : String) (indent : Json) : Logged (Except Fault String) := do
  Logged.note .info "duel.match" ("Saving match config JSON to " ++ path)
  return (fun style => c.toJson.print style) <$> layout indent

def load (text : String) : Except Fault MatchConfig :=
  match Json.parse text with
  | .error fault => .error (.unreadable fault)
  | .ok data => ofJson data

end MazeDuel.MatchConfig
