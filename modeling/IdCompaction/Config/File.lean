import IdCompaction.Action
import IdCompaction.Config.Document

/-!
# Configuration files

A configuration may be kept in a file. What can be found on a path is a directory's business, so a
directory is an explicit argument; loading says whether the file could not be read or could not be
understood, and why.

A path is walked part by part. A directory is found in itself under one dot and under an empty part,
and the directory that it stands in under two. What stands above the explicit directory are
directories too, but nothing in them is known by name.
-/

namespace IdCompaction

/-- What stands on a path. -/
inductive Entry
  | directory
  | file (contents : ByteArray)

/-- Why a file could not be read. -/
inductive ReadFault
  | missing
  | isDirectory
  | notDirectory
  | nameTooLong
  | nulInName
  | notText
  deriving DecidableEq

/-- The text of a reason. -/
def ReadFault.message : ReadFault → String
  | .missing => "No such file or directory (os error 2)"
  | .isDirectory => "Is a directory (os error 21)"
  | .notDirectory => "Not a directory (os error 20)"
  | .nameTooLong => "File name too long (os error 36)"
  | .nulInName => "file name contained an unexpected NUL byte"
  | .notText => "stream did not contain valid UTF-8"

/-- What stands in one directory, by the names that lead to it, outermost first. -/
structure Directory where
  entries : List (List String × Entry)

namespace Directory

/-- The longest name of an entry, in bytes. -/
def longestName : Nat := 255

/-- The longest path, in bytes. -/
def longestPath : Nat := 4095

/-- The parts of a path, which slashes separate. -/
def parts (path : String) : List String := path.splitOn "/"

/-- A part that leads nowhere else. -/
def staysPut (part : String) : Bool := part.isEmpty || part == "."

/-- A directory with one entry, perhaps inside directories of its own. -/
def holding (path : String) (entry : Entry) : Directory :=
  ⟨[((parts path).filter fun part => !staysPut part, entry)]⟩

/-- What the names lead to; no names at all lead to the directory itself. -/
def entryAt (d : Directory) (names : List String) : Option Entry :=
  match d.entries.lookup names with
  | some entry => some entry
  | none =>
    if names.isEmpty || d.entries.any fun (found, _) => names.isPrefixOf found then some .directory
    else none

/-- A directory on a walk: the one that the names lead to, or one further up. -/
inductive Place
  | inside (names : List String)
  | above

/-- The directory that a place stands in. -/
def Place.up : Place → Place
  | .inside [] => .above
  | .inside names => .inside names.dropLast
  | .above => .above

/-- What the rest of a path leads to, from an entry and the place where it was found. Each part is
looked at only when everything before it was found. -/
def walk (d : Directory) : Place → Entry → List String → Except ReadFault Entry
  | _, entry, [] => .ok entry
  | _, .file _, _ :: _ => .error .notDirectory
  | place, .directory, part :: rest =>
    if staysPut part then d.walk place .directory rest
    else if part = ".." then d.walk place.up .directory rest
    else if longestName < part.utf8ByteSize then .error .nameTooLong
    else
      match place with
      | .above => .error .missing
      | .inside names =>
        match d.entryAt (names ++ [part]) with
        | none => .error .missing
        | some entry => d.walk (.inside (names ++ [part])) entry rest

/-- What a path leads to. A path that begins with a slash begins above everything that is known. -/
def find (d : Directory) (path : String) : Except ReadFault Entry :=
  if path.contains (Char.ofNat 0) then .error .nulInName
  else if path.isEmpty then .error .missing
  else if longestPath < path.utf8ByteSize then .error .nameTooLong
  else
    let start := if path.startsWith "/" then Place.above else .inside []
    d.walk start .directory (parts path)

/-- The contents of the file that a path leads to. -/
def readFile (d : Directory) (path : String) : Except ReadFault ByteArray := do
  match ← d.find path with
  | .directory => .error .isDirectory
  | .file contents => .ok contents

/-- The text of the file that a path leads to. -/
def readText (d : Directory) (path : String) : Except ReadFault String := do
  match String.fromUTF8? (← d.readFile path) with
  | some text => .ok text
  | none => .error .notText

end Directory

/-- Why a configuration could not be loaded. -/
inductive LoadError
  | unreadable (path : String) (cause : ReadFault)
  | unparsable (path : String) (cause : Json.Error)
  deriving DecidableEq

namespace LoadError

/-- What could not be done, and to which file. -/
def message : LoadError → String
  | .unreadable path _ => s!"failed to read config {path}"
  | .unparsable path _ => s!"failed to parse config {path}"

/-- The reason below it. -/
def cause : LoadError → String
  | .unreadable _ cause => cause.message
  | .unparsable _ cause => cause.message

end LoadError

/-- Loads a configuration from a file. -/
def RuntimeConfig.load {σ : Type} (d : Directory) (path : String) :
    Action LoadError σ RuntimeConfig := do
  let text ← Action.ofExcept ((d.readText path).mapError (LoadError.unreadable path))
  let config ← Action.ofExcept ((ofText text).mapError (LoadError.unparsable path))
  Action.emit (.configLoaded path config.describe)
  return config

end IdCompaction
