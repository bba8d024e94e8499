/-! The kinds of operation on a container, as messages name them. -/
namespace DocumentStore

inductive Operation where
  | query
  | insert
  | update
  | delete
  | clone
deriving Repr, DecidableEq

def Operation.name : Operation → String
  | query => "Query"
  | insert => "Insert"
  | update => "Update"
  | delete => "Delete"
  | clone => "Clone"

end DocumentStore
