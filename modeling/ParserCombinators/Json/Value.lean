import ParserCombinators.Number.Basic

/-!
# JSON values

A string is a list of code points, since an escape can name a lone surrogate. An object keeps its
members in the order in which their keys first came, and a key that comes again replaces the value.
-/

namespace ParserCombinators.Json

inductive Value
  | null
  | boolean (value : Bool)
  | number (value : Number)
  | string (value : CodePoints)
  | array (items : List Value)
  | object (members : List (CodePoints × Value))

variable {α : Type}

def putMember (members : List (CodePoints × α)) (key : CodePoints) (value : α) :
    List (CodePoints × α) :=
  match members with
  | [] => [(key, value)]
  | (other, old) :: rest =>
    if other = key then (other, value) :: rest else (other, old) :: putMember rest key value

def membersOf (pairs : List (CodePoints × α)) : List (CodePoints × α) :=
  pairs.foldl (fun members pair ↦ putMember members pair.1 pair.2) []

end ParserCombinators.Json
