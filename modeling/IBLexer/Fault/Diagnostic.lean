import IBLexer.Fault.Basic
import IBLexer.Fault.Paint
import IBLexer.Text.Lines

/-! A diagnostic quotes the line of a fault and marks the faulty character with a caret
on a line of its own. On a terminal both lines are red and a tip may follow. -/
namespace IBLexer.Fault

def location (fault : Fault) : String := fault.position.locate fault.file ++ " "

/-- Tabs are kept so that the caret lines up with source that is indented by tabs. -/
def indicator (fault : Fault) : List Char :=
  List.replicate fault.location.length ' ' ++
    (fault.lineText.toList.take (fault.position.column.toNat - 1)).map
      fun c => if c = '\t' then '\t' else ' '

def render (fault : Fault) : String :=
  fault.location ++ fault.lineText ++ "\n" ++
    String.ofList fault.indicator ++ "^ " ++ fault.cause.message

instance : ToString Fault := ⟨render⟩

def report (fault : Fault) : String :=
  let painted := (displayLines fault.render.toList).map fun line =>
    Paint.red (String.ofList line) ++ "\n"
  let help := fault.cause.tip?.map fun tip => Paint.yellow "help" ++ ": " ++ tip ++ "\n"
  String.join painted ++ help.getD ""

end IBLexer.Fault
