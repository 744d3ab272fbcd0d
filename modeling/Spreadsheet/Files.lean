/-!
# Files

A tree of text files as a value: the text of each file by its path, and the directories. A path is
its parts with slashes between; empty parts and single dots count for nothing, and two dots take
back the part before them, if there is one. A line of a file ends with a line feed, a carriage return
or both in this order; whatever they are in the file, a reader sees a single line feed.
-/

namespace Spreadsheet

inductive FileFault
  | notFound
  | isDirectory
  | notDirectory
  | alreadyExists
deriving DecidableEq, Repr

/-- The characters with each end of line as a line feed. -/
def Text.unifyLineEnds : List Char → List Char
  | [] => []
  | '\r' :: '\n' :: rest => '\n' :: unifyLineEnds rest
  | c :: rest => (if c = '\r' then '\n' else c) :: unifyLineEnds rest

/-- The text files and the directories of a tree. -/
structure Files where
  /-- Files in the order in which they were made. -/
  texts : List (String × String) := []
  directories : List String := []

namespace Files

/-! ## Paths -/

def splitSlashes : List Char → List (List Char)
  | [] => [[]]
  | c :: rest =>
    match splitSlashes rest with
    | [] => [[c]]
    | part :: parts => if c = '/' then [] :: part :: parts else (c :: part) :: parts

/-- The parts of a path that count. -/
def pathParts (path : String) : List String :=
  ((splitSlashes path.toList).map String.ofList).filter fun part => part != "" && part != "."

/-- A path by its parts, from the root where it starts with a slash. -/
def joinParts (fromRoot : Bool) (parts : List String) : String :=
  if fromRoot then "/" ++ "/".intercalate parts
  else if parts.isEmpty then "." else "/".intercalate parts

def isFromRoot (path : String) : Bool := path.toList.head? == some '/'

/-- A path without parts that count for nothing. -/
def tidy (path : String) : String := joinParts (isFromRoot path) (pathParts path)

/-- The parts of a path with each two dots taking back a part. At the root there is nothing to take
back; elsewhere such dots stay in front. -/
def resolveParts (path : String) : List String :=
  (pathParts path).foldl (fun done part =>
    if part != ".." || (done.getLastD "..") == ".." && !isFromRoot path then done ++ [part]
    else done.dropLast) []

/-- The path by which a file is known. -/
def key (path : String) : String := joinParts (isFromRoot path) (resolveParts path)

/-- A path inside a directory. -/
def join (directory name : String) : String :=
  if directory = "" ∨ isFromRoot name then tidy name else tidy (directory ++ "/" ++ name)

def parent (path : String) : String := joinParts (isFromRoot path) (pathParts path).dropLast

def baseName (path : String) : String := (pathParts path).getLastD ""

/-- The end of a file's name from its last dot on; a dot at the start or the end of the name is
none. -/
def suffix (path : String) : String :=
  let name := (baseName path).toList
  let tail := (name.reverse.takeWhile (· != '.')).reverse
  let dot := name.length - tail.length
  if tail.isEmpty || dot ≤ 1 then "" else String.ofList ('.' :: tail)

/-! ## Looking up -/

def text? (fs : Files) (path : String) : Option String :=
  (fs.texts.find? fun f => f.1 == key path).map Prod.snd

/-- The text of a file as a reader sees it, each end of line a line feed. -/
def readText? (fs : Files) (path : String) : Option String :=
  (fs.text? path).map fun text => String.ofList (Text.unifyLineEnds text.toList)

def isFile (fs : Files) (path : String) : Bool := (fs.text? path).isSome

def isDirectory (fs : Files) (path : String) : Bool :=
  let k := key path
  (resolveParts path).all (· == "..") || fs.directories.contains k ||
    fs.texts.any fun f => (k ++ "/").toList.isPrefixOf f.1.toList

/-- Whether the way along a path, part by part as it is written, leads through directories only; one
is due at the end, too, where a slash or a single dot stands there. -/
def isPassable (fs : Files) (path : String) : Bool :=
  let parts := pathParts path
  let last := (splitSlashes path.toList).getLastD []
  (List.range parts.length).all (fun n =>
      fs.isDirectory (joinParts (isFromRoot path) (parts.take n))) &&
    ((last != [] && last != ['.']) || fs.isDirectory path)

/-- Whether a path leads to a file as it is written. -/
def leadsToFile (fs : Files) (path : String) : Bool := fs.isPassable path && fs.isFile path

/-- Whether a path leads to a directory as it is written. -/
def leadsToDirectory (fs : Files) (path : String) : Bool :=
  path != "" && fs.isPassable path && fs.isDirectory path

/-- The directories on the way to a path, the path itself included. -/
def ancestors (path : String) : List String :=
  let parts := resolveParts path
  (List.range parts.length).map fun n => joinParts (isFromRoot path) (parts.take (n + 1))

/-! ## Changing -/

/-- Sets the text of a file. -/
def put (fs : Files) (path text : String) : Files :=
  let k := key path
  if fs.isFile k then
    { fs with texts := fs.texts.map fun f => if f.1 == k then (k, text) else f }
  else { fs with texts := fs.texts ++ [(k, text)] }

/-- Makes a directory and those on the way to it, where they do not exist. -/
def makeDirectories (fs : Files) (path : String) : Except FileFault Files :=
  if fs.isFile path then .error .alreadyExists
  else if (ancestors path).any fs.isFile then .error .notDirectory
  else .ok { fs with
    directories := fs.directories ++
      (ancestors path).filter fun d => !fs.directories.contains d }

/-- Writes a file into a directory that exists. -/
def write (fs : Files) (path text : String) : Except FileFault Files :=
  if fs.isDirectory path then .error .isDirectory
  else if fs.isFile (parent path) then .error .notDirectory
  else if !fs.isDirectory (parent path) then .error .notFound
  else .ok (fs.put path text)

/-- Appends to a file, which is made where it does not exist. -/
def append (fs : Files) (path text : String) : Except FileFault Files :=
  fs.write path ((fs.text? path).getD "" ++ text)

end Files

end Spreadsheet
