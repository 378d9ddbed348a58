import IBLexer.Text.Position
import IBLexer.Token.Keyword

/-! A token is a value, the text it was read from, and where that text begins. Its kind
follows from its value. -/
namespace IBLexer

inductive Literal where
  | string (text : String)
  | character (text : String)
  | integer (digits : String)
  | bool (value : Bool)
deriving DecidableEq, Repr

namespace Token

inductive Value where
  | keyword (word : Keyword)
  | identifier (name : String)
  | literal (value : Literal)
  | operator (symbol : Char)
  | bracket (symbol : Char)
  | endOfLine
  | endOfFile
deriving DecidableEq, Repr

inductive Kind where
  | keyword | identifier | literal | operator | bracket | endOfLine | endOfFile
deriving DecidableEq, Repr

def Kind.name : Kind → String
  | .keyword => "Keyword"
  | .identifier => "Identifier"
  | .literal => "Literal"
  | .operator => "Operator"
  | .bracket => "Bracket"
  | .endOfLine => "EOL"
  | .endOfFile => "EOF"

def Value.kind : Value → Kind
  | .keyword _ => .keyword
  | .identifier _ => .identifier
  | .literal _ => .literal
  | .operator _ => .operator
  | .bracket _ => .bracket
  | .endOfLine => .endOfLine
  | .endOfFile => .endOfFile

end Token

def Literal.payload : Literal → String
  | .string text | .character text | .integer text => text
  | .bool true => "true"
  | .bool false => "false"

/-- Keywords are shown by name, so all spellings of one keyword are shown alike. -/
def Token.Value.payload : Token.Value → String
  | .keyword word => word.name
  | .identifier name => name
  | .literal value => value.payload
  | .operator symbol | .bracket symbol => symbol.toString
  | .endOfLine => "EOL"
  | .endOfFile => "EOF"

structure Token where
  value : Token.Value
  lexeme : String
  position : Position
deriving DecidableEq, Repr

namespace Token

def kind (token : Token) : Kind := token.value.kind

def payload (token : Token) : String := token.value.payload

def isOneOf (token : Token) (kinds : List Kind) : Bool := kinds.contains token.kind

def isEndOfLine (token : Token) : Bool := token.kind == .endOfLine

def isEndOfFile (token : Token) : Bool := token.kind == .endOfFile

def endOfLine (position : Position) : Token := ⟨.endOfLine, "\n", position⟩

def endOfFile (position : Position) : Token := ⟨.endOfFile, "", position⟩

instance : ToString Token where
  toString token := token.kind.name ++ "(" ++ token.payload ++ ")"

end Token
end IBLexer
