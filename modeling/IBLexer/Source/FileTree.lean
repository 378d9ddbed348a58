import IBLexer.Source.Location

/-! Files and directories by their locations. A path is followed name by name; each name must
be looked up in a directory, so a slash or a dot after a file's name is an error. -/
namespace IBLexer

abbrev Bytes := List UInt8

inductive ReadError where
  | notFound | notADirectory | isADirectory | nameTooLong | nulInName
  | refused (reason : String) (code : Nat)
deriving DecidableEq, Repr

def ReadError.message : ReadError → String
  | notFound => "No such file or directory (os error 2)"
  | notADirectory => "Not a directory (os error 20)"
  | isADirectory => "Is a directory (os error 21)"
  | nameTooLong => "File name too long (os error 36)"
  | nulInName => "file name contained an unexpected NUL byte"
  | refused reason code => s!"{reason} (os error {code})"

/-- Where two files share a location, the first of them is the one that is read. -/
structure FileTree where
  files : List (Location × Bytes)
  directories : List Location
deriving DecidableEq, Repr

namespace FileTree

def empty : FileTree := ⟨[], []⟩

/-- Each location on the way becomes a directory, even one that the path leaves again. -/
def put (tree : FileTree) (here : Location) (bytes : Bytes) : List String → FileTree
  | [] => { tree with files := (here, bytes) :: tree.files }
  | name :: names =>
    put { tree with directories := here :: tree.directories } (here.step name) bytes names

def write (tree : FileTree) (path : String) (bytes : Bytes) : FileTree :=
  tree.put (Location.start path) bytes (Path.names path)

def ofFiles (files : List (String × Bytes)) : FileTree :=
  files.foldl (fun tree (path, bytes) => tree.write path bytes) empty

inductive Place where
  | file (bytes : Bytes)
  | directory (location : Location)
deriving DecidableEq, Repr

/-- The directories that paths start from, and those above them, always exist. -/
def find (tree : FileTree) (location : Location) : Except ReadError Place :=
  match tree.files.lookup location with
  | some bytes => .ok (.file bytes)
  | none =>
    if location.names.isEmpty || tree.directories.contains location then
      .ok (.directory location)
    else .error .notFound

def longestName : Nat := 255

def longestPath : Nat := 4095

def enter (tree : FileTree) (place : Place) (name : String) : Except ReadError Place :=
  match place with
  | .file _ => .error .notADirectory
  | .directory here =>
    if longestName < name.utf8ByteSize then .error .nameTooLong
    else tree.find (here.step name)

def read (tree : FileTree) (path : String) : Except ReadError Bytes :=
  if path.toList.contains '\x00' then .error .nulInName
  else if path = "" then .error .notFound
  else if longestPath < path.utf8ByteSize then .error .nameTooLong
  else
    match (Path.names path).foldlM tree.enter (.directory (Location.start path)) with
    | .ok (.file bytes) => .ok bytes
    | .ok _ => .error .isADirectory
    | .error error => .error error

end FileTree
end IBLexer
