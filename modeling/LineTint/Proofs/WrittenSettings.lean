import LineTint.Settings
import Mathlib.Data.List.Basic

/-!
# Settings written as a table

Settings can be written down: `Settings.toTable` is the table with the two booleans, the language
where one is set, and a style for every kind of token, its color as `#` and six hexadecimal digits
where it has one. Reading the table gives the settings back (`Settings.ofTable_toTable`). The
entries of `colors` are read one by one over a theme that has a style for every kind already; they
overwrite all of them (`Settings.foldlM_setColor`, `Theme.style_foldl_set`).
-/

namespace LineTint
set_option autoImplicit false

/-! ## Hexadecimal digits -/

namespace Text

/-- The hexadecimal digit of a value below 16, in one letter case or the other. -/
def hexDigit (capital : Bool) (value : Nat) : Char :=
  if value < 10 then Char.ofNat ('0'.toNat + value)
  else Char.ofNat ((if capital then 'A' else 'a').toNat + (value - 10))

theorem hexValue?_hexDigit (capital : Bool) {value : Nat} (h : value < 16) :
    hexValue? (hexDigit capital value) = some value := by
  have digits : ∀ capital, ∀ value < 16,
      hexValue? (hexDigit capital value) = some value := by decide
  exact digits capital value h

/-- What hexadecimal digits of the values spell after the digits of `n`. -/
theorem foldlM_hexValue? {cs : List Char} {values : List Nat}
    (h : cs.map hexValue? = values.map some) (n : Nat) :
    cs.foldlM (fun n c => (16 * n + ·) <$> hexValue? c) n =
      some (values.foldl (fun n value => 16 * n + value) n) := by
  induction cs generalizing values n with
  | nil =>
    rw [List.map_nil, eq_comm, List.map_eq_nil_iff] at h
    rw [h]
    rfl
  | cons c cs ih =>
    cases values with
    | nil => cases h
    | cons value values =>
      rw [List.map_cons, List.map_cons, List.cons.injEq] at h
      obtain ⟨digit, rest⟩ := h
      rw [List.foldlM_cons, digit, List.foldl_cons]
      exact ih rest (16 * n + value)

/-- The codes of hexadecimal digits and their values. -/
theorem hexValue?_cases {c : Char} {value : Nat} (h : hexValue? c = some value) :
    (48 ≤ c.toNat ∧ c.toNat ≤ 57 ∧ value = c.toNat - 48) ∨
      (97 ≤ c.toNat ∧ c.toNat ≤ 102 ∧ value = c.toNat - 97 + 10) ∨
      (65 ≤ c.toNat ∧ c.toNat ≤ 70 ∧ value = c.toNat - 65 + 10) := by
  unfold hexValue? at h
  split at h
  · rename_i digit
    exact .inl ⟨digit.1, digit.2, (Option.some.inj h).symm⟩
  · split at h
    · rename_i small
      exact .inr (.inl ⟨small.1, small.2, (Option.some.inj h).symm⟩)
    · split at h
      · rename_i capital
        exact .inr (.inr ⟨capital.1, capital.2, (Option.some.inj h).symm⟩)
      · cases h

theorem isBlank_of_hexValue? {c : Char} {value : Nat} (h : hexValue? c = some value) :
    isBlank c = false := by
  have codes : ∀ n ≤ 102, 48 ≤ n → inRanges n blankRanges = false := by decide
  have := hexValue?_cases h
  exact codes c.toNat (by omega) (by omega)

theorem dropBlanks_eq_self {cs : List Char} (h : ∀ c ∈ cs, isBlank c = false) :
    dropBlanks cs = cs := by
  cases cs with
  | nil => rfl
  | cons c cs => rw [dropBlanks, List.dropWhile_cons_of_neg (by simp [h c])]

theorem trim_eq_self {cs : List Char} (h : ∀ c ∈ cs, isBlank c = false) : trim cs = cs := by
  rw [trim, dropBlanks_eq_self h, dropBlanks_eq_self, List.reverse_reverse]
  intro c mem
  exact h c (List.mem_reverse.1 mem)

end Text

/-! ## Colors -/

namespace Color

/-- The values of the digits of a color. -/
def digitValues (c : Color) : List Nat :=
  [c.red, c.green, c.blue].flatMap fun part => [part.toNat / 16, part.toNat % 16]

theorem digitValue_lt {c : Color} {value : Nat} (h : value ∈ c.digitValues) : value < 16 := by
  obtain ⟨part, -, h⟩ := List.mem_flatMap.1 h
  have := part.toNat_lt
  rcases List.mem_pair.1 h with rfl | rfl <;> omega

/-- A color as `#` and six hexadecimal digits, the digit at each place in the letter case that
`capital` says. -/
def written (capital : Nat → Bool) (c : Color) : String :=
  .ofList ('#' :: c.digitValues.mapIdx fun i value => Text.hexDigit (capital i) value)

/-- The parts of a color are the three low bytes of a number. -/
theorem ofPacked_toUInt32 (n : Nat) :
    ofPacked n.toUInt32 = ⟨(n / 65536).toUInt8, (n / 256).toUInt8, n.toUInt8⟩ := by
  rw [ofPacked, mk.injEq]
  refine ⟨?_, ?_, ?_⟩
  all_goals
    apply UInt8.toNat_inj.1
    simp [Nat.shiftRight_eq_div_pow]
  all_goals omega

/-- A color is in the number that its digits spell. -/
theorem ofPacked_digitValues (c : Color) :
    ofPacked (c.digitValues.foldl (fun n value => 16 * n + value) 0).toUInt32 = c := by
  obtain ⟨r, g, b⟩ := c
  have red := r.toNat_lt
  have green := g.toNat_lt
  have blue := b.toNat_lt
  have number : (digitValues ⟨r, g, b⟩).foldl (fun n value => 16 * n + value) 0 =
      65536 * r.toNat + 256 * g.toNat + b.toNat := by
    simp only [digitValues, List.flatMap_cons, List.flatMap_nil, List.cons_append, List.nil_append,
      List.foldl_cons, List.foldl_nil]
    omega
  rw [number, ofPacked_toUInt32, mk.injEq]
  refine ⟨?_, ?_, ?_⟩
  all_goals
    apply UInt8.toNat_inj.1
    rw [Nat.toUInt8, UInt8.toNat_ofNat']
    omega

theorem exists_of_mem_digits {cs : List Char} {values : List Nat}
    (h : cs.map Text.hexValue? = values.map some) {c : Char} (mem : c ∈ cs) :
    ∃ value ∈ values, Text.hexValue? c = some value := by
  have read : Text.hexValue? c ∈ values.map some := h ▸ List.mem_map_of_mem mem
  obtain ⟨value, mem, read⟩ := List.mem_map.1 read
  exact ⟨value, mem, read.symm⟩

/-- Neither `#` nor a digit is a blank. -/
theorem trim_hashes {cs : List Char} {values : List Nat}
    (h : cs.map Text.hexValue? = values.map some) (hashes : Nat) :
    Text.trim (List.replicate hashes '#' ++ cs) = List.replicate hashes '#' ++ cs := by
  apply Text.trim_eq_self
  intro c mem
  rcases List.mem_append.1 mem with mem | mem
  · rw [List.eq_of_mem_replicate mem]
    decide
  · obtain ⟨value, -, read⟩ := exists_of_mem_digits h mem
    exact Text.isBlank_of_hexValue? read

/-- Digits behind `#` are the digits of the color. -/
theorem digits_hashes {cs : List Char} {values : List Nat}
    (h : cs.map Text.hexValue? = values.map some) (hashes : Nat) :
    digits (List.replicate hashes '#' ++ cs) = cs := by
  have marks : ∀ c ∈ List.replicate hashes '#', decide (c = '#') = true :=
    fun c mem => decide_eq_true (List.eq_of_mem_replicate mem)
  rw [digits, trim_hashes h, List.dropWhile_append_of_pos marks]
  cases cs with
  | nil => rfl
  | cons c cs =>
    obtain ⟨value, -, read⟩ := exists_of_mem_digits h List.mem_cons_self
    have other : c ≠ '#' := by
      rintro rfl
      cases read
    rw [List.dropWhile_cons_of_neg (by simp [other])]

/-- A text with the digits of a color is read as that color. -/
theorem parse_of_digits {text : String} {c : Color}
    (h : (digits text.toList).map Text.hexValue? = c.digitValues.map some) :
    parse text = .ok c := by
  have number : Text.hexNumber? (digits text.toList) =
      some (c.digitValues.foldl (fun n value => 16 * n + value) 0) :=
    Text.foldlM_hexValue? h 0
  have six : (digits text.toList).length = 6 := by
    have same := congrArg List.length h
    rw [List.length_map, List.length_map] at same
    exact same
  simp only [parse, six, number, if_true, ofPacked_digitValues]

theorem parse_written (capital : Nat → Bool) (c : Color) : parse (c.written capital) = .ok c := by
  let cs := c.digitValues.mapIdx fun i value => Text.hexDigit (capital i) value
  have values : cs.map Text.hexValue? = c.digitValues.map some := by
    apply List.ext_getElem
    · simp only [cs, List.length_map, List.length_mapIdx]
    · intro i _ within
      simp only [cs, List.getElem_map, List.getElem_mapIdx]
      apply Text.hexValue?_hexDigit
      exact digitValue_lt (List.getElem_mem _)
  have digits : digits (c.written capital).toList = cs := by
    rw [written, String.toList_ofList]
    exact digits_hashes values 1
  apply parse_of_digits
  rw [digits, values]

end Color

/-! ## Entries -/

namespace Toml

/-- The keys of a table stand in ascending order. -/
def Ascending (entries : Table) : Prop :=
  (entries.map Prod.fst).Pairwise (· < ·)

/-- The table of the entries that have a value. -/
def present (entries : List (String × Option Value)) : Table :=
  entries.filterMap fun entry => entry.2.map (entry.1, ·)

theorem ascending_present {entries : List (String × Option Value)}
    (h : (entries.map Prod.fst).Pairwise (· < ·)) : Ascending (present entries) := by
  rw [Ascending, List.pairwise_map]
  apply List.Pairwise.filterMap _ _ (List.pairwise_map.1 h)
  intro a b less e he f hf
  obtain ⟨_, -, rfl⟩ := Option.map_eq_some_iff.1 he
  obtain ⟨_, -, rfl⟩ := Option.map_eq_some_iff.1 hf
  exact less

end Toml

/-! ## Styles -/

namespace Style

/-- A style as a table, without a color where it has none. -/
def toTable (capital : Nat → Bool) (s : Style) : Toml.Table :=
  Toml.present [("bold", some (.boolean s.bold)),
    ("color", s.foreground.map fun c => .string (c.written capital)),
    ("italic", some (.boolean s.italic))]

end Style

namespace Settings

theorem ok_bind {α β : Type} (a : α) (f : α → Except Fault β) : (Except.ok a >>= f) = f a := rfl

theorem valueOr_some {α : Type} {entries : Toml.Table} {key : String} {v : Toml.Value}
    (h : entries.lookup key = some v) (default : α) (read : Toml.Value → Except Fault α) :
    valueOr entries key default read = read v := by
  rw [valueOr, h]

theorem valueOr_boolean {entries : Toml.Table} {key : String} {b : Bool}
    (h : entries.lookup key = some (.boolean b)) (default : Bool) (path : String) :
    valueOr entries key default (boolean path) = .ok b := by
  rw [valueOr, h]
  rfl

/-- An entry that is there for some values only is read back, and nothing where it is not. -/
theorem valueOr_optional {α : Type} {entries : Toml.Table} {key : String} {x : Option α}
    {write : α → Toml.Value} {read : Toml.Value → Except Fault (Option α)}
    (h : entries.lookup key = x.map write) (inverse : ∀ a, read (write a) = .ok (some a)) :
    valueOr entries key none read = .ok x := by
  rw [valueOr, h]
  cases x with
  | none => rfl
  | some a => exact inverse a

theorem styleOfTable_toTable (path : String) (capital : Nat → Bool) (s : Style) :
    styleOfTable path (s.toTable capital) = .ok s := by
  have color : (s.toTable capital).lookup "color" =
      s.foreground.map fun c => .string (c.written capital) := by
    unfold Style.toTable
    cases s.foreground <;> rfl
  have bold : (s.toTable capital).lookup "bold" = some (.boolean s.bold) := rfl
  have italic : (s.toTable capital).lookup "italic" = some (.boolean s.italic) := by
    unfold Style.toTable
    cases s.foreground <;> rfl
  have foreground : valueOr (s.toTable capital) "color" none (fun v => do
      some <$> Color.parse (← string path v)) = .ok s.foreground := by
    apply valueOr_optional color
    intro c
    rw [string, ok_bind, Color.parse_written]
    rfl
  unfold styleOfTable
  rw [foreground, valueOr_boolean bold, valueOr_boolean italic]
  rfl

end Settings

/-! ## Themes -/

theorem TokenKind.ofName?_name (kind : TokenKind) : ofName? kind.name = some kind := by
  cases kind <;> decide

namespace Theme

theorem ext_style {t u : Theme} (h : ∀ kind, t.style kind = u.style kind) : t = u := by
  obtain ⟨comment, string, number, keyword, type, builtin⟩ := t
  rw [show u = ⟨u.comment, u.string, u.number, u.keyword, u.type, u.builtin⟩ from rfl, mk.injEq]
  exact ⟨h .comment, h .string, h .number, h .keyword, h .type, h .builtin⟩

/-- Setting the styles of another theme changes those of the kinds that were set. -/
theorem style_foldl_set (kinds : List TokenKind) (t u : Theme) (kind : TokenKind) :
    (kinds.foldl (fun t k => t.set k (u.style k)) t).style kind =
      if kind ∈ kinds then u.style kind else t.style kind := by
  induction kinds generalizing t with
  | nil => rfl
  | cons k kinds ih =>
    rw [List.foldl_cons, ih, style_set]
    by_cases later : kind ∈ kinds
    · rw [if_pos later, if_pos (List.mem_cons_of_mem _ later)]
    · rw [if_neg later]
      by_cases now : kind = k
      · rw [if_pos now, if_pos (List.mem_cons.2 (.inl now)), now]
      · rw [if_neg now, if_neg (List.not_mem_cons_of_ne_of_not_mem now later)]

/-- The kinds of tokens in the order of their names. -/
def kinds : List TokenKind := [.builtin, .comment, .keyword, .number, .string, .type]

theorem foldl_set_kinds (t u : Theme) :
    kinds.foldl (fun t kind => t.set kind (u.style kind)) t = u := by
  apply ext_style
  intro kind
  have every : kind ∈ kinds := by cases kind <;> decide
  rw [style_foldl_set, if_pos every]

/-- The entry for the style of a kind. -/
def entry (capital : TokenKind → Nat → Bool) (t : Theme) (kind : TokenKind) :
    String × Toml.Value :=
  (kind.name, .table ((t.style kind).toTable (capital kind)))

/-- A theme as a table of styles, with an entry for every kind of token. -/
def toTable (capital : TokenKind → Nat → Bool) (t : Theme) : Toml.Table :=
  kinds.map (t.entry capital)

end Theme

namespace Settings

theorem setColor_entry (capital : TokenKind → Nat → Bool) (t u : Theme) (kind : TokenKind) :
    setColor t (u.entry capital kind) = .ok (t.set kind (u.style kind)) := by
  simp only [setColor, Theme.entry, TokenKind.ofName?_name, styleOfValue, styleOfTable_toTable]
  rfl

/-- Entries with the styles of a theme set those styles, whatever their order. -/
theorem foldlM_setColor (capital : TokenKind → Nat → Bool) (t u : Theme)
    (kinds : List TokenKind) :
    (kinds.map (u.entry capital)).foldlM setColor t =
      .ok (kinds.foldl (fun t kind => t.set kind (u.style kind)) t) := by
  induction kinds generalizing t with
  | nil => rfl
  | cons kind kinds ih =>
    rw [List.map_cons, List.foldlM_cons, setColor_entry, List.foldl_cons]
    exact ih (t.set kind (u.style kind))

end Settings

/-! ## The whole -/

theorem Language.parse_name (l : Language) : parse l.name = .ok l := by
  cases l <;> rfl

namespace Settings

/-- The entries of `editor`. -/
def editorTable (s : Settings) : Toml.Table :=
  Toml.present [("color", some (.boolean s.color)),
    ("default-language", s.defaultLanguage.map fun l => .string l.name),
    ("line-numbers", some (.boolean s.lineNumbers))]

/-- Settings as a table. -/
def toTable (capital : TokenKind → Nat → Bool) (s : Settings) : Toml.Table :=
  [("colors", .table (s.theme.toTable capital)), ("editor", .table s.editorTable)]

/-- Keys are in ascending order wherever settings are written, as tables have them. -/
theorem ascending_toTable (capital : TokenKind → Nat → Bool) (s : Settings) :
    Toml.Ascending (s.toTable capital) ∧ Toml.Ascending s.editorTable ∧
      Toml.Ascending (s.theme.toTable capital) ∧
      ∀ kind, Toml.Ascending ((s.theme.style kind).toTable (capital kind)) := by
  have whole : ["colors", "editor"].Pairwise (· < ·) := by decide
  have editor : ["color", "default-language", "line-numbers"].Pairwise (· < ·) := by decide
  have colors : (Theme.kinds.map TokenKind.name).Pairwise (· < ·) := by decide
  have style : ["bold", "color", "italic"].Pairwise (· < ·) := by decide
  exact ⟨whole, Toml.ascending_present editor, colors, fun kind => Toml.ascending_present style⟩

theorem applyEditor_editorTable (s : Settings) :
    applyEditor standard s.editorTable = .ok { s with theme := .standard } := by
  have lineNumbers : s.editorTable.lookup "line-numbers" = some (.boolean s.lineNumbers) := by
    unfold editorTable
    cases s.defaultLanguage <;> rfl
  have color : s.editorTable.lookup "color" = some (.boolean s.color) := rfl
  have language : s.editorTable.lookup "default-language" =
      s.defaultLanguage.map fun l => .string l.name := by
    unfold editorTable
    cases s.defaultLanguage <;> rfl
  have defaultLanguage : valueOr s.editorTable "default-language" none (fun v => do
      some <$> Language.parse (← string "editor.default-language" v)) = .ok s.defaultLanguage := by
    apply valueOr_optional language
    intro l
    rw [string, ok_bind, Language.parse_name]
    rfl
  rw [applyEditor, valueOr_boolean lineNumbers, valueOr_boolean color, standard, defaultLanguage]
  rfl

theorem applyColors_toTable (capital : TokenKind → Nat → Bool) (s : Settings) (t : Theme) :
    applyColors { s with theme := t } (s.theme.toTable capital) = .ok s := by
  rw [applyColors, Theme.toTable, foldlM_setColor, Theme.foldl_set_kinds]
  rfl

/-- **Settings written and read back** are the same settings, whatever they are and in whatever
letter case the digits of their colors are written. -/
theorem ofTable_toTable (capital : TokenKind → Nat → Bool) (s : Settings) :
    ofTable (s.toTable capital) = .ok s := by
  have editor : (s.toTable capital).lookup "editor" = some (.table s.editorTable) := rfl
  have colors : (s.toTable capital).lookup "colors" = some (.table (s.theme.toTable capital)) := rfl
  have read : (do standard.applyEditor (← table "editor" (.table s.editorTable))) =
      .ok { s with theme := .standard } := s.applyEditor_editorTable
  rw [ofTable, valueOr_some editor, read, ok_bind, valueOr_some colors, table, ok_bind]
  exact applyColors_toTable capital s .standard

end Settings
end LineTint
