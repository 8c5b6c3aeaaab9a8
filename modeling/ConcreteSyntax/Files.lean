/-! # Files

A set of files by path. Reading a path walks down from the top, as an operating system does, and
fails with a cause: nothing is there, a directory is in the place of a file, or a file in the place
of a directory. -/

namespace ConcreteSyntax

/-- What stands at a path. -/
inductive FileEntry where
  | file (content : ByteArray)
  | directory

/-- Why a path cannot be read. -/
inductive AccessError where
  | notFound
  | isDirectory
  | notDirectory
  /-- The bytes of the file are no text. -/
  | notText
  deriving DecidableEq

/-- A cause as the system words it. -/
def AccessError.text : AccessError → String
  | .notFound => "No such file or directory (os error 2)"
  | .isDirectory => "Is a directory (os error 21)"
  | .notDirectory => "Not a directory (os error 20)"
  | .notText => "stream did not contain valid UTF-8"

/-- Files and directories by the names on the way to them; a later entry hides an earlier one. What
leads to an entry is a directory. -/
structure Files where
  entries : List (List String × FileEntry)

namespace Files

/-- The names on the way down a path. -/
def components (path : String) : List String := path.splitOn "/"

/-- The entry at a place. Above the top there are directories, but nothing in them is known. -/
def entry? (files : Files) (place : List String) : Option FileEntry :=
  match files.entries.reverse.find? (·.1 == place) with
  | some (_, entry) => some entry
  | none =>
    if place.all (· == "..") || files.entries.any (place.isPrefixOf ·.1) then some .directory
    else none

/-- The place above a place. -/
def above (place : List String) : List String :=
  if place.all (· == "..") then place ++ [".."] else place.dropLast

/-- Walks on from a place. An empty name, as behind a slash at the end, stays where it is, but only
a directory has one. -/
def walk (files : Files) (place : List String) : List String → Except AccessError FileEntry
  | [] => match files.entry? place with
    | some entry => .ok entry
    | none => .error .notFound
  | name :: rest => match files.entry? place with
    | none => .error .notFound
    | some (.file _) => .error .notDirectory
    | some .directory =>
      let next :=
        if name == "" || name == "." then place
        else if name == ".." then above place
        else place ++ [name]
      files.walk next rest

/-- The bytes of a file. -/
def read (files : Files) (path : String) : Except AccessError ByteArray :=
  if path.isEmpty then .error .notFound
  else match files.walk [] (components path) with
    | .ok (.file content) => .ok content
    | .ok .directory => .error .isDirectory
    | .error cause => .error cause

/-- The text of a file. -/
def readText (files : Files) (path : String) : Except AccessError String :=
  match files.read path with
  | .error cause => .error cause
  | .ok content => match String.fromUTF8? content with
    | some text => .ok text
    | none => .error .notText

end Files

end ConcreteSyntax
