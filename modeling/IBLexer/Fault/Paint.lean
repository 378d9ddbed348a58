/-! Foreground colours of a terminal, by their number in its palette. -/
namespace IBLexer.Paint

def foreground (color : String) (text : String) : String :=
  "\x1b[38;5;" ++ color ++ "m" ++ text ++ "\x1b[39m"

def red (text : String) : String := foreground "1" text

def yellow (text : String) : String := foreground "3" text

theorem red_eq (text : String) : red text = "\x1b[38;5;1m" ++ text ++ "\x1b[39m" := by
  have hcode : "\x1b[38;5;" ++ "1" ++ "m" = "\x1b[38;5;1m" := by decide
  rw [red, foreground, hcode]

theorem yellow_eq (text : String) : yellow text = "\x1b[38;5;3m" ++ text ++ "\x1b[39m" := by
  have hcode : "\x1b[38;5;" ++ "3" ++ "m" = "\x1b[38;5;3m" := by decide
  rw [yellow, foreground, hcode]

end IBLexer.Paint
