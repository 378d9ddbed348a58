/-! Lines for display: a line feed ends a line, one carriage return right before it goes
with it, and a text that ends in a line feed has no empty last line. -/
namespace IBLexer

def displayLines : List Char → List (List Char)
  | [] => []
  | '\n' :: text => [] :: displayLines text
  | '\r' :: '\n' :: text => [] :: displayLines text
  | c :: text =>
    match displayLines text with
    | [] => [[c]]
    | line :: more => (c :: line) :: more

end IBLexer
