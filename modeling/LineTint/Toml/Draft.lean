import LineTint.Toml.Value

/-!
# Drafts of tables

A document fills its tables bit by bit, and a table remembers how it came about:
implicitly, as a step on the way to another, and whether that way was a dotted
key. What was defined in full, by a header or as a value, is not reopened: a
dotted key passes only implicit tables, a header defines only what no dotted key
has made, and no key is given twice.
-/

namespace LineTint.Toml
set_option autoImplicit false

/-- What stands under a key of an unfinished document. -/
inductive Draft where
  | value (v : Value)
  | table (implicit dotted : Bool) (entries : List (String × Draft))
  /-- An array of tables, the last one first. -/
  | tables (items : List (List (String × Draft)))

namespace Draft

/-- An empty table with a header of its own. -/
def empty : Draft := .table false false []

/-- Changes the table at the end of a path, through the last tables of arrays,
and makes the tables that are missing on the way. -/
def update (dotted : Bool) (change : Draft → Option Draft) : List String → Draft → Option Draft
  | [], d => change d
  | key :: path, .table i d entries =>
    match entries.lookup key with
    | none => do
      let child ← update dotted change path (.table true dotted [])
      some (.table i d (put key child entries))
    | some (.table i' d' entries') =>
      if dotted && !i' then none
      else do
        let child ← update dotted change path (.table i' d' entries')
        some (.table i d (put key child entries))
    | some (.tables (last :: others)) => do
      match ← update dotted change path (.table false false last) with
      | .table _ _ last => some (.table i d (put key (.tables (last :: others)) entries))
      | _ => none
    | some _ => none
  | _ :: _, _ => none

/-- Gives a value to a key of a table that was reached by the path of a dotted
key. -/
def define (viaDots : Bool) (key : String) (v : Value) : Draft → Option Draft
  | .table i d entries =>
    if d != viaDots || (entries.lookup key).isSome then none
    else some (.table i d (put key (.value v) entries))
  | _ => none

/-- Gives a value to a dotted key, whose last part is `key`, below a table. -/
def assign (path : List String) (key : String) (v : Value) (d : Draft) : Option Draft :=
  update true (define (!path.isEmpty) key v) path d

/-- Opens the table with the given name for a header. -/
def openTable (key : String) : Draft → Option Draft
  | .table i d entries =>
    match entries.lookup key with
    | none => some (.table i d (put key empty entries))
    | some (.table true false entries') =>
      some (.table i d (put key (.table false false entries') entries))
    | some _ => none
  | _ => none

/-- Opens a new last table of the array with the given name. -/
def openNext (key : String) : Draft → Option Draft
  | .table i d entries =>
    match entries.lookup key with
    | none => some (.table i d (put key (.tables [[]]) entries))
    | some (.tables items) => some (.table i d (put key (.tables ([] :: items)) entries))
    | some _ => none
  | _ => none

mutual

/-- The value that a finished draft stands for. -/
def toValue : Draft → Value
  | .value v => v
  | .table _ _ entries => .table (entriesToTable entries)
  | .tables items => .array (itemsToValues items).reverse

/-- The entries of a finished table. -/
def entriesToTable : List (String × Draft) → Table
  | [] => []
  | (key, d) :: rest => (key, d.toValue) :: entriesToTable rest

/-- The tables of a finished array, in the order of the draft. -/
def itemsToValues : List (List (String × Draft)) → List Value
  | [] => []
  | entries :: rest => .table (entriesToTable entries) :: itemsToValues rest

end

/-- The table that a finished draft stands for. -/
def toTable (d : Draft) : Table :=
  match d.toValue with
  | .table entries => entries
  | _ => []

end Draft
end LineTint.Toml
