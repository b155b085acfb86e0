import PgRaggraph.Core.Json

/-! `jsonb`: the last member of each key is kept, by the length of the key and then by its bytes. -/

namespace PgRaggraph

namespace Json

variable {N : Type}

def keyBefore (a b : String) : Bool :=
  a.utf8ByteSize < b.utf8ByteSize || (a.utf8ByteSize == b.utf8ByteSize && decide (a < b))

def insertMember (key : String) (v : Json N) : List (String × Json N) → List (String × Json N)
  | [] => [(key, v)]
  | m :: rest => if keyBefore key m.1 then (key, v) :: m :: rest else m :: insertMember key v rest

/-- A later member of the same key stands. -/
def addMember (key : String) (v : Json N) (members : List (String × Json N)) :
    List (String × Json N) :=
  if (members.lookup key).isSome then members else insertMember key v members

mutual

def jsonb : Json N → Json N
  | .null => .null
  | .bool value => .bool value
  | .number value => .number value
  | .string value => .string value
  | .array elements => .array (jsonbElements elements)
  | .object members => .object (jsonbMembers members)

def jsonbElements : List (Json N) → List (Json N)
  | [] => []
  | element :: rest => jsonb element :: jsonbElements rest

def jsonbMembers : List (String × Json N) → List (String × Json N)
  | [] => []
  | (key, v) :: rest => addMember key (jsonb v) (jsonbMembers rest)

end

end Json

end PgRaggraph
