import LineTint.Proofs.ByteOrder
import LineTint.Proofs.OrderedTables

/-!
# The first fault of settings

What settings are checked for, as a list: each check looks at one place of the table and knows the
fault of a value there (`Settings.checks`). Reading fails with the fault of the earliest check that
finds one and succeeds if none does (`Settings.faultOf_ofTable_eq`). One lemma for each reader says
what its fault is (`Settings.faultOf_applyEditor`, `Settings.faultOf_styleOfTable`); that the fault
of an entry of `colors` does not hang on the entries before it makes the loop over them a search
(`Settings.faultOf_foldlM`). A key that no reader looks up changes nothing
(`Settings.ofTable_putAt`).
-/

namespace LineTint
set_option autoImplicit false

namespace Toml

/-! ## Places in tables -/

/-- The value at the end of a path of keys. -/
def Value.at? : Value → List String → Option Value
  | v, [] => some v
  | .table entries, key :: path => (entries.lookup key).bind fun v => v.at? path
  | _, _ :: _ => none

/-- The table with an entry put into the table at the end of a path, if there is one. -/
def putAt (key : String) (x : Value) : List String → Table → Table
  | [], entries => put key x entries
  | k :: path, entries =>
    match entries.lookup k with
    | some (.table inner) => put k (.table (putAt key x path inner)) entries
    | _ => entries

end Toml

namespace Settings

/-! ## Checks -/

/-- A check of the settings: the place it looks at, and the fault of a value there. -/
structure Check where
  path : List String
  fault? : Toml.Value → Option Fault

/-- What the check finds in a table. -/
def Check.on (c : Check) (t : Toml.Table) : Option Fault :=
  ((Toml.Value.table t).at? c.path).bind c.fault?

/-- The value is of another kind than those that the setting may have. -/
def notOf (kinds : List String) (key expected : String) (v : Toml.Value) : Option Fault :=
  if v.kindName ∈ kinds then none else some (mismatch key expected v)

/-- The text names no language. -/
def notLanguage : Toml.Value → Option Fault
  | .string s => if (Language.ofName? s).isNone then some (.unknownLanguage s) else none
  | _ => none

/-- The text is not six hexadecimal digits, with blanks around them and `#` in front. -/
def notColor : Toml.Value → Option Fault
  | .string s =>
    let cs := Color.digits s.toList
    if cs.length = 6 ∧ cs.all (fun c => (Text.hexValue? c).isSome) then none
    else some (.invalidColor s)
  | _ => none

/-- The name is that of no token, whatever its value. -/
def notToken (name : String) (_ : Toml.Value) : Option Fault :=
  if (TokenKind.ofName? name).isNone then some (.invalidSetting ("colors." ++ name) .unknownToken)
  else none

/-- The checks of `editor`. -/
def editorChecks : List Check :=
  [⟨["editor"], notOf ["table"] "editor" "a table"⟩,
    ⟨["editor", "line-numbers"], notOf ["boolean"] "editor.line-numbers" "a boolean"⟩,
    ⟨["editor", "color"], notOf ["boolean"] "editor.color" "a boolean"⟩,
    ⟨["editor", "default-language"], notOf ["string"] "editor.default-language" "a string"⟩,
    ⟨["editor", "default-language"], notLanguage⟩]

/-- The checks of an entry of `colors`. -/
def colorChecks (name : String) : List Check :=
  let key := "colors." ++ name
  [⟨["colors", name], notToken name⟩,
    ⟨["colors", name], notOf ["string", "table"] key "a color string or table"⟩,
    ⟨["colors", name], notColor⟩,
    ⟨["colors", name, "color"], notOf ["string"] key "a string"⟩,
    ⟨["colors", name, "color"], notColor⟩,
    ⟨["colors", name, "bold"], notOf ["boolean"] key "a boolean"⟩,
    ⟨["colors", name, "italic"], notOf ["boolean"] key "a boolean"⟩]

/-- The keys of `colors`, in the order of the table. -/
def colorNames (t : Toml.Table) : List String :=
  match t.lookup "colors" with
  | some (.table entries) => entries.map Prod.fst
  | _ => []

/-- All checks of a table, in their order. -/
def checks (t : Toml.Table) : List Check :=
  editorChecks ++ ⟨["colors"], notOf ["table"] "colors" "a table"⟩ ::
    (colorNames t).flatMap colorChecks

/-- The fault is that of the earliest check that finds one. -/
def FirstFault (t : Toml.Table) (f : Fault) : Prop :=
  ∃ before c after, checks t = before ++ c :: after ∧ c.on t = some f ∧
    ∀ d ∈ before, d.on t = none

/-- A key that means nothing in the table at the end of a path. -/
inductive Unread : List String → String → Prop where
  | top {key : String} (other : key ∉ ["editor", "colors"]) : Unread [] key
  | editor {key : String} (other : key ∉ ["line-numbers", "color", "default-language"]) :
    Unread ["editor"] key
  | style {key : String} (name : String) (other : key ∉ ["color", "bold", "italic"]) :
    Unread ["colors", name] key

/-! ## The faults of readers -/

/-- The fault of a reading, if it failed. -/
def faultOf {α : Type} : Except Fault α → Option Fault
  | .ok _ => none
  | .error f => some f

/-- What is found in a value that is a table. -/
def inTable {α : Type} (find? : Toml.Table → Option α) : Toml.Value → Option α
  | .table entries => find? entries
  | _ => none

section Readers

variable {α β : Type}

theorem faultOf_eq_some_iff {x : Except Fault α} {f : Fault} :
    faultOf x = some f ↔ x = .error f := by
  cases x <;> simp [faultOf]

theorem faultOf_isSome_iff {x : Except Fault α} :
    (faultOf x).isSome = true ↔ ∃ f, x = .error f := by
  cases x <;> simp [faultOf]

/-- Behind a reader comes the fault of the next, if that does not hang on what was read. -/
theorem faultOf_bind {x : Except Fault α} {next : α → Except Fault β} {later : Option Fault}
    (h : ∀ a, faultOf (next a) = later) : faultOf (x >>= next) = (faultOf x).or later := by
  cases x with
  | error f => rfl
  | ok a => exact h a

theorem faultOf_pure (a : α) : faultOf (pure a) = none := rfl

theorem faultOf_map (g : α → β) (x : Except Fault α) : faultOf (g <$> x) = faultOf x := by
  cases x <;> rfl

theorem faultOf_valueOr (entries : Toml.Table) (key : String) (default : α)
    (read : Toml.Value → Except Fault α) :
    faultOf (valueOr entries key default read) =
      (entries.lookup key).bind fun v => faultOf (read v) := by
  rw [valueOr]
  cases entries.lookup key <;> rfl

theorem faultOf_foldlM {step : β → α → Except Fault β} {fault : α → Option Fault}
    (h : ∀ b a, faultOf (step b a) = fault a) (as : List α) (b : β) :
    faultOf (as.foldlM step b) = as.findSome? fault := by
  induction as generalizing b with
  | nil => rfl
  | cons a as ih =>
    rw [List.foldlM_cons, faultOf_bind ih, h, List.findSome?_cons]
    cases fault a <;> rfl

theorem faultOf_boolean (key : String) (v : Toml.Value) :
    faultOf (boolean key v) = notOf ["boolean"] key "a boolean" v := by
  cases v <;> rfl

theorem isSome_foldlM_hexValue? (cs : List Char) (n : Nat) :
    (cs.foldlM (fun n c => (16 * n + ·) <$> Text.hexValue? c) n).isSome =
      cs.all fun c => (Text.hexValue? c).isSome := by
  induction cs generalizing n with
  | nil => rfl
  | cons c cs ih =>
    rw [List.foldlM_cons, List.all_cons]
    cases Text.hexValue? c with
    | none => rfl
    | some value => exact ih (16 * n + value)

theorem faultOf_parse (s : String) : faultOf (Color.parse s) = notColor (.string s) := by
  have digits := isSome_foldlM_hexValue? (Color.digits s.toList) 0
  unfold Color.parse Text.hexNumber?
  rw [notColor, ← digits]
  by_cases six : (Color.digits s.toList).length = 6
  · simp only [six, if_true, true_and]
    cases (Color.digits s.toList).foldlM (fun n c => (16 * n + ·) <$> Text.hexValue? c) 0 <;> rfl
  · simp only [six, if_false, false_and]
    rfl

theorem faultOf_parseLanguage (s : String) :
    faultOf (Language.parse s) = notLanguage (.string s) := by
  unfold Language.parse
  rw [notLanguage]
  cases Language.ofName? s <;> rfl

/-- The kind of a value is looked at first, and then what its text says. -/
theorem faultOf_string {read : String → Except Fault α} {fault : Toml.Value → Option Fault}
    (text : ∀ s, faultOf (read s) = fault (.string s)) (key : String) (v : Toml.Value) :
    faultOf (do some <$> read (← string key v)) =
      (notOf ["string"] key "a string" v).or (fault v) := by
  cases v with
  | string s => exact (faultOf_map some (read s)).trans (text s)
  | integer n => rfl
  | float written => rfl
  | boolean b => rfl
  | datetime written => rfl
  | array items => rfl
  | table entries => rfl

/-- The table is looked at first, and then what stands in it. -/
theorem faultOf_table (key : String) (read : Toml.Table → Except Fault α) (v : Toml.Value) :
    faultOf (do read (← table key v)) =
      (notOf ["table"] key "a table" v).or (inTable (fun entries => faultOf (read entries)) v) := by
  cases v <;> rfl

end Readers

/-! ## The faults of sections -/

theorem faultOf_applyEditor (s : Settings) (entries : Toml.Table) :
    faultOf (s.applyEditor entries) =
      ((entries.lookup "line-numbers").bind
        (notOf ["boolean"] "editor.line-numbers" "a boolean")).or
      (((entries.lookup "color").bind (notOf ["boolean"] "editor.color" "a boolean")).or
      ((entries.lookup "default-language").bind fun v =>
        (notOf ["string"] "editor.default-language" "a string" v).or (notLanguage v))) := by
  unfold applyEditor
  rw [faultOf_bind fun lineNumbers => faultOf_bind fun color => faultOf_bind fun language =>
    faultOf_pure _]
  simp only [Option.or_none, faultOf_valueOr, funext (faultOf_boolean _),
    faultOf_string faultOf_parseLanguage]

theorem faultOf_styleOfTable (key : String) (entries : Toml.Table) :
    faultOf (styleOfTable key entries) =
      ((entries.lookup "color").bind fun v =>
        (notOf ["string"] key "a string" v).or (notColor v)).or
      (((entries.lookup "bold").bind (notOf ["boolean"] key "a boolean")).or
      ((entries.lookup "italic").bind (notOf ["boolean"] key "a boolean"))) := by
  unfold styleOfTable
  rw [faultOf_bind fun foreground => faultOf_bind fun bold => faultOf_bind fun italic =>
    faultOf_pure _]
  simp only [Option.or_none, faultOf_valueOr, funext (faultOf_boolean _),
    faultOf_string faultOf_parse]

/-- The fault of an entry of `colors` does not hang on the theme so far. -/
theorem faultOf_setColor (theme : Theme) (name : String) (v : Toml.Value) :
    faultOf (setColor theme (name, v)) =
      (notToken name v).or (faultOf (styleOfValue ("colors." ++ name) v)) := by
  unfold setColor notToken
  dsimp only
  cases TokenKind.ofName? name with
  | none => rfl
  | some kind => exact faultOf_map _ _

/-- The fault of the entries of `colors` does not hang on the settings so far. -/
theorem faultOf_applyColors (s : Settings) (entries : Toml.Table) :
    faultOf (s.applyColors entries) = entries.findSome? fun e => faultOf (setColor .standard e) := by
  unfold applyColors
  rw [faultOf_bind fun theme => faultOf_pure _, Option.or_none]
  refine faultOf_foldlM (fun theme e => ?_) entries s.theme
  rw [faultOf_setColor, faultOf_setColor]

theorem faultOf_ofTable (t : Toml.Table) :
    faultOf (ofTable t) =
      ((t.lookup "editor").bind fun v => (notOf ["table"] "editor" "a table" v).or
        (inTable (fun entries => faultOf (standard.applyEditor entries)) v)).or
      ((t.lookup "colors").bind fun v => (notOf ["table"] "colors" "a table" v).or
        (inTable (fun entries => entries.findSome? fun e => faultOf (setColor .standard e)) v)) := by
  have colors : ∀ s : Settings, faultOf (valueOr t "colors" s fun v => do
      s.applyColors (← table "colors" v)) =
      (t.lookup "colors").bind fun v => (notOf ["table"] "colors" "a table" v).or
        (inTable (fun entries => entries.findSome? fun e =>
          faultOf (setColor .standard e)) v) := by
    intro s
    simp only [faultOf_valueOr, faultOf_table, faultOf_applyColors]
  unfold ofTable
  rw [faultOf_bind colors]
  simp only [faultOf_valueOr, faultOf_table]

/-! ## The faults that the checks find -/

theorem findSome?_cons_or {α β : Type} (f : α → Option β) (a : α) (as : List α) :
    (a :: as).findSome? f = (f a).or (as.findSome? f) := by
  rw [List.findSome?_cons]
  cases f a <;> rfl

theorem bind_or_bind {α β : Type} (o : Option α) (f g : α → Option β) :
    (o.bind f).or (o.bind g) = o.bind fun a => (f a).or (g a) := by
  cases o <;> rfl

/-- A check behind a key looks at the value of that key. -/
theorem on_cons (key : String) (path : List String) (fault? : Toml.Value → Option Fault)
    (t : Toml.Table) :
    Check.on ⟨key :: path, fault?⟩ t =
      (t.lookup key).bind fun v => (v.at? path).bind fault? := by
  rw [Check.on, Toml.Value.at?, Option.bind_assoc]

theorem findSome?_editorChecks (t : Toml.Table) :
    editorChecks.findSome? (·.on t) =
      (t.lookup "editor").bind fun v => (notOf ["table"] "editor" "a table" v).or
        (inTable (fun entries => faultOf (standard.applyEditor entries)) v) := by
  simp only [editorChecks, findSome?_cons_or, List.findSome?_nil, on_cons, bind_or_bind,
    Option.or_none]
  refine congrArg _ (funext fun v => ?_)
  cases v with
  | table entries =>
    simp only [inTable, faultOf_applyEditor, Toml.Value.at?, ← bind_or_bind, Option.bind_some,
      Option.bind_fun_some]
  | _ => rfl

/-- The checks of an entry of `colors` find what is wrong with it. -/
theorem findSome?_colorChecks {t entries : Toml.Table} {name : String} {v : Toml.Value}
    (colors : t.lookup "colors" = some (.table entries)) (found : entries.lookup name = some v) :
    (colorChecks name).findSome? (·.on t) = faultOf (setColor .standard (name, v)) := by
  simp only [colorChecks, findSome?_cons_or, List.findSome?_nil, on_cons, colors, Option.bind_some,
    Toml.Value.at?, found, Option.or_none, faultOf_setColor]
  refine congrArg _ ?_
  cases v with
  | table inner =>
    simp only [styleOfValue, faultOf_styleOfTable, Toml.Value.at?, ← bind_or_bind,
      Option.bind_fun_some, Option.or_assoc]
    rfl
  | string s =>
    rw [styleOfValue, faultOf_bind fun color => faultOf_pure _, faultOf_parse]
    rfl
  | _ => rfl

theorem findSome?_flatMap {α β γ : Type} (f : β → Option γ) (checks : α → List β) (as : List α) :
    (as.flatMap checks).findSome? f = as.findSome? fun a => (checks a).findSome? f := by
  induction as with
  | nil => rfl
  | cons a as ih => rw [List.flatMap_cons, List.findSome?_append, ih, findSome?_cons_or]

theorem findSome?_congr {α β : Type} {f g : α → Option β} {as : List α}
    (h : ∀ a ∈ as, f a = g a) : as.findSome? f = as.findSome? g := by
  induction as with
  | nil => rfl
  | cons a as ih =>
    obtain ⟨first, later⟩ := List.forall_mem_cons.1 h
    rw [findSome?_cons_or, findSome?_cons_or, first, ih later]

/-- **The checks in their order** find the fault of a table. -/
theorem faultOf_ofTable_eq {t : Toml.Table} (ordered : (Toml.Value.table t).Ordered) :
    faultOf (ofTable t) = (checks t).findSome? (·.on t) := by
  rw [faultOf_ofTable, checks, List.findSome?_append, findSome?_editorChecks, findSome?_cons_or,
    on_cons, findSome?_flatMap]
  refine congrArg _ ?_
  unfold colorNames
  cases colors : t.lookup "colors" with
  | none => rfl
  | some v =>
    cases v with
    | table entries =>
      have ascending : Toml.Ascending entries :=
        (ordered.each _ (Toml.mem_of_lookup colors)).ascending
      have each : entries.findSome? (fun e => faultOf (setColor .standard e)) =
          (entries.map Prod.fst).findSome? fun name => (colorChecks name).findSome? (·.on t) := by
        rw [List.findSome?_map]
        refine findSome?_congr fun e he => ?_
        exact (findSome?_colorChecks colors (Toml.lookup_of_mem ascending he)).symm
      exact each
    | _ => rfl

/-! ## Keys that mean nothing -/

/-- An entry put where another one was changes a fold only by what the step makes of it. -/
theorem foldlM_put {β : Type} {step : β → String × Toml.Value → Except Fault β}
    {entries : Toml.Table} {key : String} {v w : Toml.Value} (ascending : Toml.Ascending entries)
    (found : entries.lookup key = some v) (same : ∀ b, step b (key, w) = step b (key, v)) (b : β) :
    (Toml.put key w entries).foldlM step b = entries.foldlM step b := by
  induction entries generalizing b with
  | nil => cases found
  | cons e rest ih =>
    obtain ⟨k, x⟩ := e
    obtain ⟨first, later⟩ := List.pairwise_cons.1 ascending
    rw [Toml.put]
    split
    · rename_i here
      subst here
      rw [List.lookup_cons_self] at found
      obtain rfl := Option.some.inj found
      rw [List.foldlM_cons, List.foldlM_cons, same]
    · rename_i ne
      rw [List.lookup_cons, beq_eq_false_iff_ne.2 ne] at found
      have behind : k < key := first key (List.mem_map_of_mem (Toml.mem_of_lookup found))
      rw [if_neg (String.lt_asymm behind), List.foldlM_cons, List.foldlM_cons]
      exact congrArg _ (funext fun b => ih later found b)

section Put

variable {α : Type} {key : String} {v w x : Toml.Value} {t entries inner : Toml.Table}
  {keys : List String}

/-- A reader of one key passes over the others. -/
theorem valueOr_put (other : key ∉ keys) {k : String} (mem : k ∈ keys) (x : Toml.Value)
    (entries : Toml.Table) (default : α) (read : Toml.Value → Except Fault α) :
    valueOr (Toml.put key x entries) k default read = valueOr entries k default read := by
  have ne : k ≠ key := by
    rintro rfl
    exact other mem
  rw [valueOr, Toml.lookup_put_of_ne ne, valueOr]

/-- A value may give way to one that reads the same. -/
theorem valueOr_put_self {read : Toml.Value → Except Fault α}
    (found : entries.lookup key = some v) (same : read w = read v) (default : α) :
    valueOr (Toml.put key w entries) key default read = valueOr entries key default read := by
  rw [valueOr_some (Toml.lookup_put key w entries), valueOr_some found, same]

theorem applyEditor_put (other : key ∉ ["line-numbers", "color", "default-language"])
    (x : Toml.Value) (s : Settings) (entries : Toml.Table) :
    s.applyEditor (Toml.put key x entries) = s.applyEditor entries := by
  unfold applyEditor
  rw [valueOr_put other (by simp), valueOr_put other (by simp), valueOr_put other (by simp)]

theorem styleOfTable_put (other : key ∉ ["color", "bold", "italic"]) (x : Toml.Value)
    (path : String) (entries : Toml.Table) :
    styleOfTable path (Toml.put key x entries) = styleOfTable path entries := by
  unfold styleOfTable
  rw [valueOr_put other (by simp), valueOr_put other (by simp), valueOr_put other (by simp)]

theorem ofTable_put_editor (found : t.lookup "editor" = some (.table entries))
    (same : standard.applyEditor inner = standard.applyEditor entries) :
    ofTable (Toml.put "editor" (.table inner) t) = ofTable t := by
  have colors : "editor" ∉ ["colors"] := by decide
  unfold ofTable
  rw [valueOr_put_self found same]
  simp only [valueOr_put colors (List.mem_singleton.2 rfl)]

theorem ofTable_put_colors (found : t.lookup "colors" = some (.table entries))
    (same : ∀ s : Settings, s.applyColors inner = s.applyColors entries) :
    ofTable (Toml.put "colors" (.table inner) t) = ofTable t := by
  have editor : "colors" ∉ ["editor"] := by decide
  unfold ofTable
  rw [valueOr_put editor (List.mem_singleton.2 rfl)]
  refine congrArg _ (funext fun s => ?_)
  exact valueOr_put_self found (same s) s

/-- The entries of `colors` with another one put into a style. -/
theorem applyColors_put_style (ascending : Toml.Ascending entries) {name : String}
    (found : entries.lookup name = some (.table inner)) (other : key ∉ ["color", "bold", "italic"])
    (x : Toml.Value) (s : Settings) :
    s.applyColors (Toml.put name (.table (Toml.put key x inner)) entries) =
      s.applyColors entries := by
  have same : ∀ theme, setColor theme (name, .table (Toml.put key x inner)) =
      setColor theme (name, .table inner) := by
    intro theme
    simp only [setColor, styleOfValue, styleOfTable_put other]
  rw [applyColors, applyColors, foldlM_put ascending found same]

/-- **Keys that mean nothing** have no part in the settings. -/
theorem ofTable_putAt (ordered : (Toml.Value.table t).Ordered) {path : List String}
    (unread : Unread path key) (x : Toml.Value) :
    ofTable (Toml.putAt key x path t) = ofTable t := by
  cases unread with
  | top other =>
    rw [Toml.putAt, ofTable, ofTable]
    simp only [valueOr_put other (List.mem_cons_self),
      valueOr_put other (List.mem_cons_of_mem _ List.mem_cons_self)]
  | editor other =>
    rw [Toml.putAt]
    split
    · rename_i inner found
      exact ofTable_put_editor found (applyEditor_put other x standard inner)
    · rfl
  | style name other =>
    rw [Toml.putAt]
    split
    · rename_i entries colors
      rw [Toml.putAt]
      split
      · rename_i inner found
        have ascending : Toml.Ascending entries :=
          (ordered.each _ (Toml.mem_of_lookup colors)).ascending
        exact ofTable_put_colors colors (applyColors_put_style ascending found other x)
      · exact ofTable_put_colors colors fun s => rfl
    · rfl

end Put

/-! ## The whole -/

/-- The keys of `colors` are in the order of their bytes. -/
theorem pairwise_colorNames {t : Toml.Table} (ordered : (Toml.Value.table t).Ordered) :
    (colorNames t).Pairwise fun a b => Text.utf8 a < Text.utf8 b := by
  unfold colorNames
  split
  · rename_i entries colors
    have ascending : Toml.Ascending entries :=
      (ordered.each _ (Toml.mem_of_lookup colors)).ascending
    exact ascending.imp Text.utf8_lt_utf8
  · exact .nil

/-- **The fault of settings** is that of the earliest check that finds one, and there is none if no
check does; the entries of `colors` are checked in the order of the bytes of their keys. Keys that
mean nothing change neither the settings nor the fault. Tables of documents are ordered
(`Toml.ordered_of_read?`). -/
theorem ofTable_firstFault {t : Toml.Table} (ordered : (Toml.Value.table t).Ordered) :
    (∀ f, ofTable t = .error f ↔ FirstFault t f) ∧
      ((∃ f, ofTable t = .error f) ↔ ∃ c ∈ checks t, (c.on t).isSome = true) ∧
      ((colorNames t).Pairwise fun a b => Text.utf8 a < Text.utf8 b) ∧
      ∀ path key x, Unread path key → ofTable (Toml.putAt key x path t) = ofTable t := by
  have found := faultOf_ofTable_eq ordered
  refine ⟨fun f => ?_, ?_, pairwise_colorNames ordered, fun path key x unread => ?_⟩
  · rw [← faultOf_eq_some_iff, found, List.findSome?_eq_some_iff]
    rfl
  · rw [← faultOf_isSome_iff, found, List.findSome?_isSome_iff]
  · exact ofTable_putAt ordered unread x

/-- A language that does not exist is reported before a color that is none. -/
theorem ofTable_firstFault_language :
    let t : Toml.Table := [("colors", .table [("comment", .string "blue")]),
      ("editor", .table [("default-language", .string "cobol")])]
    (Toml.Value.table t).Ordered ∧ ofTable t = .error (.unknownLanguage "cobol") := by
  intro t
  have single : ∀ key s, (Toml.Value.table [(key, .string s)]).Ordered := fun key s =>
    .table (List.pairwise_singleton _ _)
      (List.forall_mem_singleton.2 (.scalar (by simp) (by simp)))
  have ordered : (Toml.Value.table t).Ordered := by
    refine .table ?_ (by simp [t, single])
    show ["colors", "editor"].Pairwise (· < ·)
    decide
  have first : FirstFault t (.unknownLanguage "cobol") :=
    ⟨editorChecks.take 4, _, _, rfl, by decide, by decide⟩
  exact ⟨ordered, ((ofTable_firstFault ordered).1 _).2 first⟩

end Settings
end LineTint
