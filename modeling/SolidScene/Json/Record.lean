import SolidScene.Json.Basic

/-!
# Records in JSON

A record with fixed field names is written as an object with these names, or as an array with
the values in the order of the names, of which the last may be missing.  Members of other names
are passed over; a name that comes twice, or that is no text, spoils the record.
-/

namespace SolidScene

namespace Json

/-- The value of a field in an object: none where it is missing, a failure where it comes more than
once. -/
def memberOf? (members : List (Option String × Json)) (name : String) : Option (Option Json) :=
  match members.filter (·.1 == some name) with
  | [] => some none
  | [(_, value)] => some (some value)
  | _ => none

/-- The values of the fields of a record in the order of their names, each none where it is
missing. -/
def fieldsOf? (names : List String) : Json → Option (List (Option Json))
  | .object members =>
    if members.all (·.1.isSome) then names.mapM (memberOf? members) else none
  | .array items =>
    if items.length ≤ names.length then
      some (items.map some ++ List.replicate (names.length - items.length) none)
    else none
  | _ => none

/-- A field that has to be there. -/
def required {α : Type} (decode : Json → Option α) (field : Option Json) : Option α :=
  field.bind decode

/-- A field that has a default. -/
def withDefault {α : Type} (decode : Json → Option α) (default : α) : Option Json → Option α
  | none => some default
  | some value => decode value

/-- One of several names: a text, or an object whose only member has the name and is null. -/
def oneOf {α : Type} (ofName? : String → Option α) : Json → Option α
  | .string (some name) => ofName? name
  | .object [(some name, .null)] => ofName? name
  | _ => none

/-- The values of an array, each read in the same way. -/
def listOf {α : Type} (decode : Json → Option α) : Json → Option (List α)
  | .array items => items.mapM decode
  | _ => none

end Json

end SolidScene
