/-!
# Sorts of query nodes

A query tree is made of an owner, statements, clauses and value lists. Which sort may hang below
which, and which may do so only once, is fixed here.
-/
namespace DeclarativeSql

inductive NodeSort
  | owner
  | source
  | join
  | filter
  | groupBy
  | orderBy
  | limit
  | select
  | values
  | insert
  deriving DecidableEq

/-- A place below a node that holds at most one child. -/
inductive ClauseSlot
  | clause (sort : NodeSort)
  | valueSource
  deriving DecidableEq

namespace NodeSort

def name : NodeSort → String
  | owner => "Owner"
  | source => "From"
  | join => "Join"
  | filter => "Where"
  | groupBy => "GroupBy"
  | orderBy => "OrderBy"
  | limit => "Limit"
  | select => "Select"
  | values => "Values"
  | insert => "InsertInto"

/-- Statements hang below the owner, clauses below a source, value sources below an insert, and a
source below any node whose expression uses it as a subquery. -/
def accepts : NodeSort → NodeSort → Bool
  | owner, source | owner, insert => true
  | source, join | source, filter | source, groupBy | source, orderBy | source, limit
  | source, select => true
  | insert, source | insert, values => true
  | join, source | filter, source | groupBy, source | orderBy, source | limit, source
  | select, source | values, source => true
  | _, _ => false

/-- The slot that a child takes, if it can be there only once. Joins repeat freely. -/
def slot? : NodeSort → NodeSort → Option ClauseSlot
  | source, filter => some (.clause filter)
  | source, groupBy => some (.clause groupBy)
  | source, orderBy => some (.clause orderBy)
  | source, limit => some (.clause limit)
  | source, select => some (.clause select)
  | insert, source | insert, values => some .valueSource
  | _, _ => none

end NodeSort

def ClauseSlot.name : ClauseSlot → String
  | clause sort => sort.name
  | valueSource => "value source"

end DeclarativeSql
