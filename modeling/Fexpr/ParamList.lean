import Fexpr.Value

/-!
# Parameter lists

How a tree spells the parameters of a fexpr: a list of names, the quoted ones suspended. The last
name may end in the marker of a parameter that takes all remaining operands; the marker alone is a
plain name. No two parameters share a name.
-/

namespace Fexpr

/-- Why a tree spells no parameter list. -/
inductive ParamFault where
  | notAList (tree : Value)
  | notAName (item : Value)
  | restNotLast (item : Value)
  | duplicate (name : String)

namespace Param

/-- The name without the marker at its end, if it has one and is more than the marker. -/
def restName? (name : String) : Option String :=
  let cs := name.toList
  let marker := restMarker.toList
  if marker.length < cs.length && marker.isSuffixOf cs then
    some (String.ofList (cs.take (cs.length - marker.length)))
  else none

/-- The parameter that a tree spells where any parameter may stand. -/
def ofTree? : Value → Option Param
  | .symbol name => some (ofName name false)
  | .quote (.symbol name) => some (ofName name true)
  | _ => none
where
  /-- The parameter that a name spells. -/
  ofName (name : String) (suspended : Bool) : Param :=
    match restName? name with
    | some base => { name := base, suspended, rest := true }
    | none => { name, suspended, rest := false }

/-- The parameters that trees spell, after parameters with the names `seen`. -/
def ofTrees (seen : List String) : List Value → Except ParamFault (List Param)
  | [] => .ok []
  | item :: items =>
    match ofTree? item with
    | none => .error (.notAName item)
    | some param =>
      if param.rest && !items.isEmpty then .error (.restNotLast item)
      else if seen.contains param.name then .error (.duplicate param.name)
      else do return param :: (← ofTrees (param.name :: seen) items)

/-- The parameters that a tree spells. -/
def listOfTree : Value → Except ParamFault (List Param)
  | .nil => .ok []
  | .list items _ => ofTrees [] items
  | tree => .error (.notAList tree)

end Param
end Fexpr
