import WikiQuery.Compile.Basic
import WikiQuery.SortKey

namespace WikiQuery.Compiler

-- Records in a condition which variable holds what a sort key sorts by, if that key is requested,
-- can be of use and is not recorded yet. Pages sort by their sort key, which a weak condition binds
-- to a variable of its own; other values sort by the variable itself.
def attachSort (c : Compiler) (keys : SortKeys) (join : Variable) (target : Option SortTarget)
    (datatype : Datatype) (condition : Condition) : Condition :=
  match target with
  | none => condition
  | some target =>
    let a := condition.attachments
    if condition.isNothing || !keys.contains target.key || a.sortVariables.contains target.key then
      condition
    else if datatype.isPage then
      let key := join.withSuffix c.settings.sortSuffix
      condition.withAttachments
        { a with
          weak := a.weak ++ [.ofPattern [.sortKey join key]]
          sortVariables := a.sortVariables.insert target.key key }
    else
      condition.withAttachments { a with sortVariables := a.sortVariables.insert target.key join }

-- The same for a condition that says nothing about the kind of values of its variable: the request
-- says it.
def attachRequested (c : Compiler) (keys : SortKeys) (join : Variable)
    (target : Option SortTarget) (condition : Condition) : Condition :=
  let datatype := match target with
    | some target => target.datatype
    | none => .page
  c.attachSort keys join target datatype condition

-- The condition that everything fulfils, which can be sorted all the same.
def everything (c : Compiler) (keys : SortKeys) (join : Variable) (target : Option SortTarget) :
    Condition :=
  c.attachRequested keys join target .everything

end WikiQuery.Compiler
