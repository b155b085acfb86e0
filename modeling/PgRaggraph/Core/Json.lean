import PgRaggraph.Core.Types

/-! JSON values as `serde_json` holds them. `N` is the type of its numbers. -/

namespace PgRaggraph

inductive Json (N : Type) where
  | null
  | bool (value : Bool)
  | number (value : N)
  | string (value : String)
  | array (elements : List (Json N))
  | object (members : List (String × Json N))

namespace Json

variable {N : Type}

def get? (v : Json N) (key : String) : Option (Json N) :=
  match v with
  | .object members => members.lookup key
  | _ => none

/-- `v[key]`, which is null where there is nothing. -/
def field (v : Json N) (key : String) : Json N := (v.get? key).getD .null

def nth (v : Json N) (index : Nat) : Json N :=
  match v with
  | .array elements => elements[index]?.getD .null
  | _ => .null

def asStr : Json N → Option String
  | .string s => some s
  | _ => none

def asArray : Json N → Option (List (Json N))
  | .array elements => some elements
  | _ => none

def asNumber : Json N → Option N
  | .number n => some n
  | _ => none

end Json

def trim (isSpace : Char → Bool) (s : String) : String :=
  String.ofList ((s.toList.dropWhile isSpace).reverse.dropWhile isSpace).reverse

end PgRaggraph
