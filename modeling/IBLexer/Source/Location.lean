import IBLexer.Source.Path

/-! A location is a directory that paths start from and the names that lead down from it.
Following names is bookkeeping alone: what lies at a location is for a file tree to say. -/
namespace IBLexer

/-- Paths start from the root or from the working directory, and may climb above the latter. -/
inductive Origin where
  | root
  | ancestor (levels : Nat)
deriving DecidableEq, Repr

structure Location where
  origin : Origin
  /-- The innermost name comes first. -/
  names : List String
deriving DecidableEq, Repr

namespace Location

def start (path : String) : Location :=
  ⟨if path.toList.head? = some '/' then .root else .ancestor 0, []⟩

def parent : Location → Location
  | ⟨origin, _ :: names⟩ => ⟨origin, names⟩
  | ⟨.ancestor levels, []⟩ => ⟨.ancestor (levels + 1), []⟩
  | ⟨.root, []⟩ => ⟨.root, []⟩

def step (here : Location) (name : String) : Location :=
  if Path.isCurrent name then here
  else if name = ".." then here.parent
  else { here with names := name :: here.names }

end Location
end IBLexer
