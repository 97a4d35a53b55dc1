import EmbedQuery.Json.Basic

/-!
# Records in JSON

A record with named fields is written as an object, or as an array of its fields in their order. In
an object, members of other names are skipped, and a field must not be given twice; in an array,
fields may be missing at the end only. A field that has a default may be left out, but what stands
there must be of its type: null is no default.
-/

namespace EmbedQuery.Json

/-- The value of the member `name`, if there is one; none at all if there are several. -/
def member? (members : List (List Char × Json)) (name : String) : Option (Option Json) :=
  match members.filter (·.1 == name.toList) with
  | [] => some none
  | [(_, value)] => some (some value)
  | _ => none

/-- The values of the fields `names`, `none` for a field that is left out. -/
def fields? (names : List String) : Json → Option (List (Option Json))
  | object members => do
    let members ← members.mapM fun (key, value) => (Literal.decode key).map (·, value)
    names.mapM (member? members)
  | array items =>
    if items.length ≤ names.length then
      some (items.map some ++ List.replicate (names.length - items.length) none)
    else none
  | null | bool _ | number _ | string _ => none

/-- The value of a field that has to be there. -/
def required? (read : Json → Option α) (field : Option Json) : Option α := do read (← field)

/-- The value of a field that may be left out. -/
def optional? (default : α) (read : Json → Option α) : Option Json → Option α
  | none => some default
  | some value => read value

end EmbedQuery.Json
