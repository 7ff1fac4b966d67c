import PipelineSql.Scope.Basic

/-!
# Objects from dotted names

The members of an object may have dotted names, which nest. Of two values for one name the last
wins, a value wins over members below it, and keys stand in the order in which they first occur.
-/

namespace PipelineSql

/-- A value or an object of named members. -/
inductive Member where
  | value (f : Fragment) (json : Bool)
  | object (members : List (String × Member))

namespace Member

/-- The members with one of them changed, or added at the end. -/
def alter (key : String) (f : Option Member → Member) :
    List (String × Member) → List (String × Member)
  | [] => [(key, f none)]
  | (k, m) :: rest => if k = key then (k, f (some m)) :: rest else (k, m) :: alter key f rest

/-- The members with a value put at a path. -/
def put (f : Fragment) (json : Bool) : List String → List (String × Member) → List (String × Member)
  | [], members => members
  | [key], members => alter key (fun _ => .value f json) members
  | key :: next :: rest, members =>
    members |> alter key fun
      | none => .object (put f json (next :: rest) [])
      | some (.value g j) => .value g j
      | some (.object below) => .object (put f json (next :: rest) below)

mutual

/-- The text of a member. -/
def fragment : Member → Fragment
  | .value f json => f.formatted json
  | .object members => Fragment.call "JSON_OBJECT" (fragments members)

/-- The texts of named members. -/
def fragments : List (String × Member) → List Fragment
  | [] => []
  | (key, m) :: rest => (Fragment.string key ++ " VALUE " ++ m.fragment) :: fragments rest

end

end Member

end PipelineSql
