import IBLexer.Unicode.Lowercase

/-! The ten keywords. A word is a keyword when its lowercase form is a keyword's spelling,
so case never matters, and the Kelvin sign may stand for the `k` of `break`. -/
namespace IBLexer

inductive Keyword where
  | print | assert
  | «if» | «for» | «while»
  | «return» | «continue» | «break»
  | func | «namespace»
deriving DecidableEq, Repr

namespace Keyword

def all : List Keyword :=
  [print, assert, «if», «for», «while», «return», «continue», «break», func, «namespace»]

def spelling : Keyword → String
  | print => "print"
  | assert => "assert"
  | «if» => "if"
  | «for» => "for"
  | «while» => "while"
  | «return» => "return"
  | «continue» => "continue"
  | «break» => "break"
  | func => "func"
  | «namespace» => "namespace"

def name : Keyword → String
  | print => "Print"
  | assert => "Assert"
  | «if» => "If"
  | «for» => "For"
  | «while» => "While"
  | «return» => "Return"
  | «continue» => "Continue"
  | «break» => "Break"
  | func => "Func"
  | «namespace» => "Namespace"

def ofWord? (word : List Char) : Option Keyword :=
  all.find? fun keyword => keyword.spelling.toList == Unicode.lowercaseText word

theorem mem_all (keyword : Keyword) : keyword ∈ all := by cases keyword <;> decide

theorem spelling_injective {k l : Keyword} (h : k.spelling = l.spelling) : k = l := by
  cases k <;> cases l <;> first | rfl | simp [spelling] at h

end Keyword
end IBLexer
