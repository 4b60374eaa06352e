import TableOps.Filter.Basic
import TableOps.Reference.Table

/-!
# Restricting a filter to one table

A statement that writes to one table can only use the comparisons of that table's columns.
`Filter.restrict?` drops the leaves of other tables and the qualifiers of the rest; groups left
empty vanish and groups left with one member are replaced by it.
-/

namespace TableOps

namespace Filter

mutual

/-- What is left of a filter when only the leaves of `table` are kept, without their qualifiers. -/
def restrict? (table : TableRef) : Filter → Option Filter
  | .leaf l =>
    let (qualifier, column) := Reference.splitQualifier l.name
    if table.owns qualifier then some (.leaf { l with name := column }) else none
  | .group connective members => join? connective (restrictAll table members)

/-- What is left of several filters. -/
def restrictAll (table : TableRef) : List Filter → List Filter
  | [] => []
  | f :: fs => (restrict? table f).toList ++ restrictAll table fs

end

end Filter

end TableOps
