/-! Paths are names between slashes. Empty names and single dots stand for the directory
they are in, two dots for the one above it. -/
namespace IBLexer.Path

def names (path : String) : List String := path.splitOn "/"

def isCurrent (name : String) : Bool := name == "" || name == "."

/-- The last name of a path, unless the path leads to a directory by dots alone. -/
def fileName? (path : String) : Option String :=
  match ((names path).filter fun name => !isCurrent name).getLast? with
  | some ".." => none
  | last => last

end IBLexer.Path
