/-!
# JSON values

A JSON document. Whole numbers are kept apart from numbers with a point or an exponent, because a
whole number may be too large for a double; the three numeric constants beyond JSON proper are
doubles. The fields of an object keep their order, and `put` keeps names apart: a field that is
written again takes its new value at its old place.
-/

namespace LoxLang

/-- A JSON document. -/
inductive Json where
  | null
  | bool (value : Bool)
  | integer (value : Int)
  | number (value : Float)
  | string (value : String)
  | array (items : List Json)
  | object (fields : List (String × Json))

namespace Json

instance : Inhabited Json := ⟨null⟩

/-- The value under a name. -/
def lookup (name : String) : List (String × Json) → Option Json
  | [] => none
  | (found, value) :: fields => if found = name then some value else lookup name fields

/-- Writes a field: a value under the same name is replaced, and a new name goes to the end. -/
def put (name : String) (value : Json) : List (String × Json) → List (String × Json)
  | [] => [(name, value)]
  | (found, old) :: fields =>
    if found = name then (name, value) :: fields else (found, old) :: put name value fields

/-- The object to which fields were written one after the other. -/
def ofFields (fields : List (String × Json)) : Json :=
  object (fields.foldl (fun written field => put field.1 field.2 written) [])

/-- The value that was written last is found, and other values are as before. -/
theorem lookup_put (name other : String) (value : Json) (fields : List (String × Json)) :
    lookup other (put name value fields) =
      if other = name then some value else lookup other fields := by
  induction fields with
  | nil => simp [put, lookup, eq_comm]
  | cons field fields inductionHypothesis =>
    obtain ⟨found, old⟩ := field
    by_cases hit : found = name
    · subst hit
      by_cases same : other = found <;> simp [put, lookup, same, Ne.symm]
    · simp only [put, hit, if_false, lookup, inductionHypothesis]
      by_cases same : other = name
      · subst same
        simp [hit]
      · simp [same]

/-- The field of an object; other documents have none. -/
def field? (document : Json) (name : String) : Option Json :=
  match document with
  | object fields => lookup name fields
  | _ => none

end Json
end LoxLang
