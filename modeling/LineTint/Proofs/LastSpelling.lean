import LineTint.Proofs.FirstFault
import LineTint.Proofs.Trimmed

/-!
# Kinds that are spelled more than once

A kind of token has many spellings (`TokenKind.ofName?_blanks`), so several keys of `colors` may
name it. They are read in the order of their bytes, each over the theme so far, and the last one
decides the style of the kind (`Settings.style_foldlM`). Which key that is hangs on the keys of the
kind alone. The two sections are read apart from each other: settings are those of `editor` with the
theme of `colors` (`Settings.sections_of_ofTable`).
-/

namespace LineTint
set_option autoImplicit false

namespace TokenKind
open Text (Blanks lowerAscii)

/-- Blanks around a name and the case of ASCII letters in it do not matter. -/
theorem ofName?_blanks {front name back other : List Char} (hf : Blanks front) (hb : Blanks back)
    (same : lowerAscii name = lowerAscii other) :
    ofName? (.ofList (front ++ name ++ back)) = ofName? (.ofList other) := by
  have key : lowerAscii (Text.trim (front ++ name ++ back)) = lowerAscii (Text.trim other) := by
    rw [Text.trim_append_blanks hf hb, ← Text.trim_lowerAscii, same, Text.trim_lowerAscii]
  rw [ofName?, ofName?, String.toList_ofList, String.toList_ofList, key]

end TokenKind

namespace Settings

/-! ## The theme that is set -/

theorem exists_of_bind_ok {α β : Type} {x : Except Fault α} {next : α → Except Fault β} {b : β}
    (h : (x >>= next) = .ok b) : ∃ a, x = .ok a ∧ next a = .ok b := by
  cases x with
  | error f => cases h
  | ok a => exact ⟨a, rfl, h⟩

/-- An entry of `colors` that is read sets the style of the kind that its key names. -/
theorem exists_of_setColor {t u : Theme} {e : String × Toml.Value} (h : setColor t e = .ok u) :
    ∃ kind s, TokenKind.ofName? e.1 = some kind ∧ styleOfValue ("colors." ++ e.1) e.2 = .ok s ∧
      u = t.set kind s := by
  unfold setColor at h
  dsimp only at h
  split at h
  · cases h
  · rename_i kind named
    obtain ⟨s, read, done⟩ := exists_of_bind_ok h
    exact ⟨kind, s, named, read, (Except.ok.inj done).symm⟩

/-- The entry sets the style of the kind, and no entry with greater bytes in its key does. -/
def Decides (entries : Toml.Table) (kind : TokenKind) (e : String × Toml.Value) : Prop :=
  e ∈ entries ∧ TokenKind.ofName? e.1 = some kind ∧
    ∀ d ∈ entries, TokenKind.ofName? d.1 = some kind → d ≠ e → Text.utf8 d.1 < Text.utf8 e.1

/-- The style of a kind behind some entries is that of the entry that decides, or the one it had if
none of them names the kind. -/
theorem style_foldlM {entries : Toml.Table} {t u : Theme}
    (ascending : entries.Pairwise fun d e => Text.utf8 d.1 < Text.utf8 e.1)
    (read : entries.foldlM setColor t = .ok u) (kind : TokenKind) :
    (∃ e, Decides entries kind e ∧
      styleOfValue ("colors." ++ e.1) e.2 = .ok (u.style kind)) ∨
    ((∀ e ∈ entries, TokenKind.ofName? e.1 ≠ some kind) ∧ u.style kind = t.style kind) := by
  induction entries generalizing t with
  | nil =>
    obtain rfl := Except.ok.inj read
    exact .inr ⟨by simp, rfl⟩
  | cons e entries ih =>
    obtain ⟨first, ascending⟩ := List.pairwise_cons.1 ascending
    rw [List.foldlM_cons] at read
    obtain ⟨next, step, later⟩ := exists_of_bind_ok read
    obtain ⟨k, s, named, style, rfl⟩ := exists_of_setColor step
    rcases ih ascending later with ⟨d, ⟨mem, names, last⟩, decided⟩ | ⟨others, kept⟩
    · -- a later entry decides, and the key of this one is less
      refine .inl ⟨d, ⟨List.mem_cons_of_mem e mem, names, ?_⟩, decided⟩
      intro c hc names' ne
      rcases List.mem_cons.1 hc with rfl | hc
      · exact first d mem
      · exact last c hc names' ne
    · rw [Theme.style_set] at kept
      by_cases here : kind = k
      · subst here
        rw [if_pos rfl] at kept
        refine .inl ⟨e, ⟨List.mem_cons_self, named, ?_⟩, by rw [kept, style]⟩
        intro c hc names' ne
        rcases List.mem_cons.1 hc with rfl | hc
        · exact absurd rfl ne
        · exact absurd names' (others c hc)
      · rw [if_neg here] at kept
        refine .inr ⟨List.forall_mem_cons.2 ⟨?_, others⟩, kept⟩
        rw [named]
        exact fun same => here (Option.some.inj same).symm

/-- At most one entry decides. -/
theorem Decides.unique {entries : Toml.Table} {kind : TokenKind} {d e : String × Toml.Value}
    (hd : Decides entries kind d) (he : Decides entries kind e) : d = e := by
  by_contra ne
  have less := he.2.2 d hd.1 hd.2.1 ne
  have greater := hd.2.2 e he.1 he.2.1 (Ne.symm ne)
  exact List.lt_asymm less greater

/-- Only the entries that name a kind have a part in which of them decides. -/
theorem Decides.congr {entries others : Toml.Table} {kind : TokenKind} {e : String × Toml.Value}
    (same : ∀ e, TokenKind.ofName? e.1 = some kind → (e ∈ others ↔ e ∈ entries))
    (h : Decides entries kind e) : Decides others kind e := by
  obtain ⟨mem, names, last⟩ := h
  refine ⟨(same e names).2 mem, names, fun d hd names' ne => ?_⟩
  exact last d ((same d names').1 hd) names' ne

/-! ## The two sections -/

/-- The entries of `colors`. -/
def colorEntries (t : Toml.Table) : Toml.Table :=
  match t.lookup "colors" with
  | some (.table entries) => entries
  | _ => []

/-- The settings of `editor` alone. -/
def ofEditor (t : Toml.Table) : Except Fault Settings :=
  valueOr t "editor" standard fun v => do
    standard.applyEditor (← table "editor" v)

theorem theme_of_applyEditor {s s' : Settings} {entries : Toml.Table}
    (h : s.applyEditor entries = .ok s') : s'.theme = s.theme := by
  unfold applyEditor at h
  obtain ⟨lineNumbers, -, h⟩ := exists_of_bind_ok h
  obtain ⟨color, -, h⟩ := exists_of_bind_ok h
  obtain ⟨language, -, h⟩ := exists_of_bind_ok h
  obtain rfl := Except.ok.inj h
  rfl

theorem theme_of_ofEditor {t : Toml.Table} {s : Settings} (h : ofEditor t = .ok s) :
    s.theme = .standard := by
  unfold ofEditor valueOr at h
  split at h
  · obtain ⟨entries, -, h⟩ := exists_of_bind_ok h
    exact theme_of_applyEditor h
  · obtain rfl := Except.ok.inj h
    rfl

/-- The settings of `editor` are read without regard to `colors`, and the theme is read over the
standard one. -/
theorem sections_of_ofTable {t : Toml.Table} {s : Settings} (h : ofTable t = .ok s) :
    ofEditor t = .ok { s with theme := .standard } ∧
      (colorEntries t).foldlM setColor .standard = .ok s.theme := by
  obtain ⟨e, editor, h⟩ := exists_of_bind_ok h
  have standard : e.theme = .standard := theme_of_ofEditor editor
  have colors : (colorEntries t).foldlM setColor .standard = .ok s.theme ∧
      e = { s with theme := .standard } := by
    rw [← standard, colorEntries]
    unfold valueOr at h
    split at h
    · rename_i v found
      obtain ⟨entries, read, h⟩ := exists_of_bind_ok h
      obtain ⟨theme, folded, h⟩ := exists_of_bind_ok h
      obtain rfl := Except.ok.inj h
      cases v with
      | table inner =>
        obtain rfl := Except.ok.inj read
        rw [found]
        exact ⟨folded, rfl⟩
      | _ => cases read
    · rename_i found
      obtain rfl := Except.ok.inj h
      rw [found]
      exact ⟨rfl, rfl⟩
  exact ⟨colors.2 ▸ editor, colors.1⟩

/-- The keys of `colors` are in the order of their bytes. -/
theorem pairwise_colorEntries {t : Toml.Table} (ordered : (Toml.Value.table t).Ordered) :
    (colorEntries t).Pairwise fun d e => Text.utf8 d.1 < Text.utf8 e.1 := by
  unfold colorEntries
  split
  · rename_i entries colors
    have ascending : Toml.Ascending entries :=
      (ordered.each _ (Toml.mem_of_lookup colors)).ascending
    exact (List.pairwise_map.1 ascending).imp Text.utf8_lt_utf8
  · exact .nil

/-- The style of a kind in settings that are read: that of the entry that decides, or else the
style that the kind has of its own. -/
theorem style_of_ofTable {t : Toml.Table} (ordered : (Toml.Value.table t).Ordered) {s : Settings}
    (read : ofTable t = .ok s) (kind : TokenKind) :
    (∃ e, Decides (colorEntries t) kind e ∧
      styleOfValue ("colors." ++ e.1) e.2 = .ok (s.theme.style kind)) ∨
    ((∀ e ∈ colorEntries t, TokenKind.ofName? e.1 ≠ some kind) ∧
      s.theme.style kind = kind.defaultStyle) := by
  have folded := (sections_of_ofTable read).2
  rw [← Theme.style_standard]
  exact style_foldlM (pairwise_colorEntries ordered) folded kind

/-- Settings with the same entries for a kind give it the same style. -/
theorem style_congr {t t' : Toml.Table} (ordered : (Toml.Value.table t).Ordered)
    (ordered' : (Toml.Value.table t').Ordered) {s s' : Settings} (read : ofTable t = .ok s)
    (read' : ofTable t' = .ok s') {kind : TokenKind}
    (same : ∀ e, TokenKind.ofName? e.1 = some kind →
      (e ∈ colorEntries t' ↔ e ∈ colorEntries t)) :
    s'.theme.style kind = s.theme.style kind := by
  rcases style_of_ofTable ordered read kind with ⟨e, decides, style⟩ | ⟨others, style⟩
  · have decides' := decides.congr same
    rcases style_of_ofTable ordered' read' kind with ⟨d, found, style'⟩ | ⟨others', -⟩
    · rw [found.unique decides', style] at style'
      exact (Except.ok.inj style').symm
    · exact absurd decides'.2.1 (others' e decides'.1)
  · rcases style_of_ofTable ordered' read' kind with ⟨d, found, -⟩ | ⟨-, style'⟩
    · exact absurd found.2.1 (others d ((same d found.2.1).1 found.1))
    · rw [style', style]

/-- **Of the spellings of a kind the last one decides:** its style is that of the entry of `colors`
whose key names it and has the greatest bytes, or its own style if there is none. Spellings differ
in blanks and in letter case. Entries for other kinds have no part in it, `colors` has none in the
settings of `editor`, and `editor` none in the theme. Tables of documents are ordered
(`Toml.ordered_of_read?`). -/
theorem ofTable_lastSpelling {t : Toml.Table} (ordered : (Toml.Value.table t).Ordered)
    {s : Settings} (read : ofTable t = .ok s) :
    (∀ kind,
      (∃ e, Decides (colorEntries t) kind e ∧
        styleOfValue ("colors." ++ e.1) e.2 = .ok (s.theme.style kind)) ∨
      ((∀ e ∈ colorEntries t, TokenKind.ofName? e.1 ≠ some kind) ∧
        s.theme.style kind = kind.defaultStyle)) ∧
    (∀ front name back other, Text.Blanks front → Text.Blanks back →
      Text.lowerAscii name = Text.lowerAscii other →
      TokenKind.ofName? (.ofList (front ++ name ++ back)) = TokenKind.ofName? (.ofList other)) ∧
    ∀ t' s', (Toml.Value.table t').Ordered → ofTable t' = .ok s' →
      (∀ kind, (∀ e, TokenKind.ofName? e.1 = some kind →
          (e ∈ colorEntries t' ↔ e ∈ colorEntries t)) →
        s'.theme.style kind = s.theme.style kind) ∧
      (t'.lookup "editor" = t.lookup "editor" → s'.lineNumbers = s.lineNumbers ∧
        s'.color = s.color ∧ s'.defaultLanguage = s.defaultLanguage) ∧
      (t'.lookup "colors" = t.lookup "colors" → s'.theme = s.theme) := by
  refine ⟨style_of_ofTable ordered read, fun front name back other hf hb same =>
    TokenKind.ofName?_blanks hf hb same, fun t' s' ordered' read' => ⟨fun kind same =>
      style_congr ordered ordered' read read' same, fun same => ?_, fun same => ?_⟩⟩
  · have editor := (sections_of_ofTable read).1
    have editor' := (sections_of_ofTable read').1
    rw [ofEditor, valueOr, same, ← valueOr, ← ofEditor, editor] at editor'
    injection Except.ok.inj editor' with lineNumbers color language
    exact ⟨lineNumbers.symm, color.symm, language.symm⟩
  · have colors := (sections_of_ofTable read).2
    have colors' := (sections_of_ofTable read').2
    rw [colorEntries, same, ← colorEntries, colors] at colors'
    exact (Except.ok.inj colors').symm

/-- Of three spellings the one in small letters comes last. -/
theorem ofTable_lastSpelling_smallLetters :
    let t : Toml.Table := [("colors", .table [(" KEYWORD ", .string "#ff0000"),
      ("Keyword", .string "#00ff00"), ("keyword", .string "#0000ff")])]
    let s := { standard with
      theme := Theme.standard.set .keyword (.ofForeground (some ⟨0, 0, 255⟩)) }
    (Toml.Value.table t).Ordered ∧ ofTable t = .ok s ∧
      Decides (colorEntries t) .keyword ("keyword", .string "#0000ff") ∧
      styleOfValue "colors.keyword" (.string "#0000ff") = .ok (s.theme.style .keyword) := by
  intro t s
  have text (v : String) : (Toml.Value.string v).Ordered := .scalar (by simp) (by simp)
  have ordered : (Toml.Value.table t).Ordered := by
    refine .table (List.pairwise_singleton _ _) (List.forall_mem_singleton.2 ?_)
    refine .table ?_ (by simp [text])
    show [" KEYWORD ", "Keyword", "keyword"].Pairwise (· < ·)
    decide
  have read : ofTable t = .ok s := by rfl
  have decides : Decides (colorEntries t) .keyword ("keyword", .string "#0000ff") := by
    refine ⟨by simp [t, colorEntries], by decide, fun d mem _ ne => ?_⟩
    simp only [t, colorEntries, List.lookup_cons_self, List.mem_cons, List.not_mem_nil,
      or_false] at mem
    rcases mem with rfl | rfl | rfl
    · decide
    · decide
    · exact absurd rfl ne
  rcases (ofTable_lastSpelling ordered read).1 .keyword with ⟨e, decided, style⟩ | ⟨others, -⟩
  · obtain rfl := decided.unique decides
    exact ⟨ordered, read, decides, style⟩
  · exact absurd decides.2.1 (others _ decides.1)

end Settings
end LineTint
