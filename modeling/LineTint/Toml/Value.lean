/-!
# TOML values

The values of a TOML document. A table lists its entries with their keys in
ascending order, each key once; `put` keeps that order. Floats and dates are
kept as they are written, since only their kind is ever asked for.
-/

namespace LineTint.Toml
set_option autoImplicit false

/-- A value of a TOML document. -/
inductive Value where
  | string (text : String)
  | integer (n : Int)
  | float (written : String)
  | boolean (b : Bool)
  | datetime (written : String)
  | array (items : List Value)
  | table (entries : List (String × Value))

/-- The entries of a table, by ascending key. -/
abbrev Table := List (String × Value)

/-- The name of the kind of a value. -/
def Value.kindName : Value → String
  | .string _ => "string"
  | .integer _ => "integer"
  | .float _ => "float"
  | .boolean _ => "boolean"
  | .datetime _ => "datetime"
  | .array _ => "array"
  | .table _ => "table"

/-- The entries with `x` at `key`, in the place where the order wants it. -/
def put {α : Type} (key : String) (x : α) : List (String × α) → List (String × α)
  | [] => [(key, x)]
  | (k, y) :: rest =>
    if key = k then (key, x) :: rest
    else if key < k then (key, x) :: (k, y) :: rest
    else (k, y) :: put key x rest

theorem lookup_put {α : Type} (key : String) (x : α) (entries : List (String × α)) :
    (put key x entries).lookup key = some x := by
  induction entries with
  | nil => simp [put]
  | cons e rest ih =>
    obtain ⟨k, y⟩ := e
    simp only [put]
    split
    · simp
    · split
      · simp
      · rename_i ne _
        rw [List.lookup_cons, beq_eq_false_iff_ne.2 ne]
        exact ih

end LineTint.Toml
