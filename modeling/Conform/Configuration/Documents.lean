import Conform.Configuration.Factory
import Conform.Configuration.Json

/-!
Configurations in files. A file maps names of sections to lists of entries; an entry may stand in a file
of its own. Settings supply defaults to the entries of every section, or of one section when their name
starts with the section's. An entry knows its section as its type, and its position as its name unless it
has one.
-/

namespace Conform
namespace Configuration

/-- A directory of files, by their names in it. -/
structure Directory where
  path : String
  files : List (String × String)

/-- Why a configuration cannot be read. -/
inductive DocumentFault where
  /-- A file that is missing or has no known format, or an entry of another section. -/
  | load (reason : String)
  /-- A file that is malformed. -/
  | parse (reason : String)
  /-- A document that does not map names to lists of mappings. -/
  | layout
  deriving Repr

namespace Directory

/-- The parts of a path; empty ones and points do not count. -/
def parts (path : String) : List String :=
  ((splitAt '/' path.toList).map String.ofList).filter fun p => p ≠ "" && p ≠ "."

/-- A path with single separators. -/
def tidy (path : String) : String :=
  let joined := "/".intercalate (parts path)
  if path.toList.head? = some '/' then "/" ++ joined else if joined.isEmpty then "." else joined

/-- The path of a file that is named beside another file. -/
def beside (path name : String) : String :=
  if name.toList.head? = some '/' then tidy name
  else "/".intercalate ((parts path).dropLast ++ parts name)

/-- The ending of a file's name with its point, in lower case. -/
def ending (path : String) : String :=
  let name := ((parts path).getLast?.getD "").toList
  let last := (name.reverse.takeWhile (· ≠ '.')).reverse
  if last.isEmpty || name.length ≤ last.length + 1 then "" else lowerText (String.ofList ('.' :: last))

/-- The document of a file; `missing` says how a missing one is reported. -/
def read (d : Directory) (missing path : String) : Except DocumentFault Value :=
  match d.files.lookup path with
  | none => .error (.load (missing ++ ": " ++ d.path ++ "/" ++ path))
  | some source =>
    if [".json", ".yaml", ".yml"].contains (ending path) then (Json.parse source).mapError .parse
    else .error (.load ("Unsupported file format: " ++ ending path))

end Directory

/-- The entries of a mapping; nothing else has any. -/
def sectionEntries (v : Value) : Except DocumentFault (List (Value × Value)) :=
  match v with
  | .mapping _ entries => .ok entries
  | _ => .error .layout

/-- Adds an entry unless there is one of its key. -/
def addDefault (entries : List (Value × Value)) (key : String) (v : Value) : List (Value × Value) :=
  match Value.lookup? (.text key) entries with
  | some _ => entries
  | none => entries ++ [(.text key, v)]

/-- What comes after the name of a section and a point in the name of a setting. -/
def sectionSetting? (sectionName name : String) : Option String :=
  let start := sectionName.toList ++ ['.']
  if start.isPrefixOf name.toList then some (String.ofList (name.toList.drop start.length)) else none

/-- The settings that supply defaults to a section: general ones before its own. -/
def defaultsOf (settings : List (Value × Value)) (sectionName : String) : List (String × Value) :=
  let general := settings.filterMap fun (k, v) => match k.asText? with
    | some n => if n.toList.contains '.' then none else some (n, v)
    | none => none
  let own := settings.filterMap fun (k, v) =>
    (k.asText?.bind (sectionSetting? sectionName)).map fun n => (n, v)
  general ++ own

/-- The document that an entry stands for: a text that starts with `@` names a file. -/
def entryDocument (d : Directory) (main : String) (entry : Value) : Except DocumentFault Value :=
  match entry with
  | .text s => match s.toList with
    | '@' :: name =>
      d.read "Referenced configuration file not found" (Directory.beside main (String.ofList name))
    | _ => .ok entry
  | entry => .ok entry

/-- An entry of a section at a position, with its type, its name and its defaults. -/
def completeEntry (d : Directory) (main sectionName : String) (defaults : List (String × Value))
    (position : Nat) (entry : Value) : Except DocumentFault Value := do
  let entries ← sectionEntries (← entryDocument d main entry)
  let entries := addDefault entries "type" (.text sectionName)
  let type := setting entries "type"
  if !type.eq (.text sectionName) then
    throw (.load ("Type mismatch: expected " ++ sectionName ++ ", got " ++ type.str))
  let entries := addDefault entries "name" (.text (toString position))
  return .dict (defaults.foldl (fun es (n, v) => addDefault es n v) entries)

/-- The entries of a section; a single one need not stand in a list. -/
def completeSection (d : Directory) (main : String) (settings : List (Value × Value)) (sectionName : String)
    (content : Value) : Except DocumentFault (List Value) :=
  let listed := match content with
    | .list items => items
    | v => [v]
  listed.zipIdx.mapM fun (entry, i) => completeEntry d main sectionName (defaultsOf settings sectionName) i entry

/-- The sections of a configuration file, in order. -/
def readSections (d : Directory) (main : String) : Except DocumentFault (List (Value × Value)) := do
  let document ← d.read "Configuration file not found" main
  if !document.truthy then return []
  let sections ← sectionEntries document
  let settings ← match Value.lookup? (.text "settings") sections with
    | some v => sectionEntries v
    | none => pure []
  let others := sections.filter fun (k, _) => !k.same (.text "settings")
  others.mapM fun (k, v) => do return (k, .list (← completeSection d main settings k.str v))

/-- The sections of a configuration file, or the refusal of the file. -/
def loadFile (d : Directory) (main : String) : Except Fault (List (Value × Value)) :=
  let path := Directory.tidy main
  (readSections d path).mapError fun f =>
    let cause : ConfigurationCause := match f with
      | .load reason => .cannotLoad path reason
      | .parse reason => .cannotParse path reason
      | .layout => .rootNotMapping path
    refuse cause [("path", .text path)]

end Configuration

/-- Creates every schema of a configuration file. -/
def Factory.loadFrom (h : Host) (d : Configuration.Directory) (main : String) :
    Creation (List (Value × Schema)) := do
  load h (← create.liftExcept (Configuration.loadFile d main))

end Conform
