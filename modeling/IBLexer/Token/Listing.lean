import IBLexer.Token.Basic

/-! The listing of a token stream has one row for each token except the end of the file:
where it stands, its kind, and its payload, in aligned columns. -/
namespace IBLexer

def Token.location (token : Token) (file : String) : String := token.position.locate file

namespace Listing

def padding : Nat := 2

def columnWidth (entries : List String) : Nat :=
  (entries.map String.length).foldl max 0 + padding

/-- Widths have no upper limit, so a column is aligned however wide it is; a formatter that keeps
widths in 16 bits would give up on a wider one. -/
def pad (width : Nat) (entry : String) : String :=
  String.ofList (entry.toList.rightpad width ' ')

def row (file : String) (locationWidth kindWidth : Nat) (token : Token) : String :=
  pad locationWidth (token.location file) ++ pad kindWidth token.kind.name ++ token.payload ++ "\n"

def render (file : String) (tokens : List Token) : String :=
  let listed := tokens.filter fun token => !token.isEndOfFile
  let locationWidth := columnWidth (listed.map fun token => token.location file)
  let kindWidth := columnWidth (listed.map fun token => token.kind.name)
  String.join (listed.map (row file locationWidth kindWidth))

end Listing
end IBLexer
