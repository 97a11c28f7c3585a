import MazeDuel.Fault
import MazeDuel.Journal
/-!
Setup of a journal: how heavy a record must be to be written, in which form, and to which file
besides the terminal.
-/

namespace MazeDuel

/-- What can be asked for when a journal is set up. -/
structure JournalRequest where
  level : Json := .text "INFO"
  documents : Bool := false
  /-- A file name in the folder of journals, or an absolute path. -/
  file : Option String := some "duel.log"

structure Journal where
  level : Level
  documents : Bool
  /-- The path of the file, from the root of the project. -/
  file : Option (List String)

namespace Journal

/-- The capital of a letter; two letters beyond ASCII have capitals within it. -/
def capital (c : Char) : Char :=
  if c.toNat = 0x131 then 'I' else if c.toNat = 0x17F then 'S' else c.toUpper

/-- A level by its name in either case, or by its weight. -/
def readLevel : Json → Except Fault Level
  | .text name =>
    match Level.ofName? (String.ofList (name.toList.map capital)) with
    | some level => .ok level
    | none => .error .unknownLevel
  | .whole n => .ok { weight := n }
  | .bool b => .ok { weight := if b then 1 else 0, isFlag := true }
  | _ => .error .noMembers

def folder : List String := ["storage", "logs"]

/-- The longest name that a file can have, in bytes. -/
def maxName : Nat := 255

/-- The path that a name from a folder stands for, with every step up taken. -/
def resolve (folder : List String) (name : String) : List String :=
  ((name.splitOn "/").foldl (fun path part =>
    if part.isEmpty || part == "." then path
    else if part == ".." then path.drop 1
    else part :: path) folder.reverse).reverse

/-- The path of a file that can be opened: the only folders are those on the way to the journals. -/
def checkPath : List String → List String → Except Fault Unit
  | _, [] => .error .isFolder
  | known, part :: rest =>
    if maxName < part.utf8ByteSize then .error .nameTooLong
    else
      match known with
      | first :: known => if part == first then checkPath known rest else last rest
      | [] => last rest
where
  last (rest : List String) : Except Fault Unit :=
    if rest.isEmpty then .ok () else .error .noSuchFile

/-- The path of the file that a name from the folder of journals stands for. -/
def readFile (name : String) : Except Fault (List String) := do
  let path := resolve folder name
  if name.toList.any (·.toNat = 0) then throw .badName
  checkPath folder path
  return path

/-- The file is opened before the level is looked at. -/
def openFile (r : JournalRequest) : Except Fault (Option (List String)) :=
  match r.file with
  | none => .ok none
  | some name => some <$> readFile name

def setUp (r : JournalRequest) : Except Fault Journal := do
  let file ← openFile r
  return ⟨← readLevel r.level, r.documents, file⟩

def places (j : Journal) : Nat := if j.file.isSome then 2 else 1

def fileName? (j : Journal) : Option String :=
  match j.file with
  | some path => if path.dropLast == folder then path.getLast? else none
  | none => none

/-- The records that are written: those at the level or above, if they have any weight at all. -/
def written (j : Journal) (records : List Record) : List Record :=
  (Record.atLeast j.level records).filter fun r => 0 < r.level.weight

end Journal

end MazeDuel
