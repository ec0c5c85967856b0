import LineTint.Proofs.WrittenSettings

/-!
# The order of tables

The entries of a table stand in ascending order of their keys, and so they do in every table inside
it (`Toml.Value.Ordered`). Putting an entry into a table keeps that order (`Toml.pairwise_put`), so
each step of a draft does (`Toml.Draft.Ordered.update`), and every table that is read from a
document is ordered (`Toml.ordered_of_read?`).
-/

namespace LineTint.Toml
set_option autoImplicit false

/-! ## Putting entries -/

section Put

variable {α : Type} {key k : String} {x : α} {entries : List (String × α)}

theorem mem_put {e : String × α} (h : e ∈ put key x entries) : e = (key, x) ∨ e ∈ entries := by
  induction entries with
  | nil => exact .inl (List.mem_singleton.1 h)
  | cons d rest ih =>
    obtain ⟨k, y⟩ := d
    rw [put] at h
    split at h
    · exact (List.mem_cons.1 h).imp_right (List.mem_cons_of_mem _)
    · split at h
      · exact List.mem_cons.1 h
      · rcases List.mem_cons.1 h with rfl | h
        · exact .inr List.mem_cons_self
        · exact (ih h).imp_right (List.mem_cons_of_mem _)

theorem pairwise_put (key : String) (x : α) (h : (entries.map Prod.fst).Pairwise (· < ·)) :
    ((put key x entries).map Prod.fst).Pairwise (· < ·) := by
  induction entries with
  | nil => exact List.pairwise_singleton _ _
  | cons e rest ih =>
    obtain ⟨k, y⟩ := e
    obtain ⟨first, later⟩ := List.pairwise_cons.1 h
    rw [put]
    split
    · rename_i same
      subst same
      exact List.pairwise_cons.2 ⟨first, later⟩
    · rename_i ne
      split
      · rename_i before
        refine List.pairwise_cons.2 ⟨fun l hl => ?_, h⟩
        rcases List.mem_cons.1 hl with rfl | hl
        · exact before
        · exact String.lt_trans before (first l hl)
      · rename_i notBefore
        refine List.pairwise_cons.2 ⟨fun l hl => ?_, ih later⟩
        obtain ⟨e, he, rfl⟩ := List.mem_map.1 hl
        rcases mem_put he with rfl | he
        · exact Std.lt_of_le_of_ne (String.not_lt.1 notBefore) (Ne.symm ne)
        · exact first _ (List.mem_map_of_mem he)

theorem lookup_put_of_ne (h : k ≠ key) (x : α) (entries : List (String × α)) :
    (put key x entries).lookup k = entries.lookup k := by
  have other : (k == key) = false := beq_eq_false_iff_ne.2 h
  induction entries with
  | nil => rw [put, List.lookup_cons, other]
  | cons e rest ih =>
    obtain ⟨l, y⟩ := e
    rw [put]
    split
    · rename_i same
      subst same
      rw [List.lookup_cons, List.lookup_cons, other]
    · split
      · rw [List.lookup_cons, other]
      · rw [List.lookup_cons, List.lookup_cons, ih]

theorem mem_of_lookup (h : entries.lookup key = some x) : (key, x) ∈ entries := by
  obtain ⟨before, after, rfl, -⟩ := List.lookup_eq_some_iff.1 h
  simp

/-- Every entry of an ordered table is the one that its key is looked up at. -/
theorem lookup_of_mem {t : Table} {v : Value} (ascending : Ascending t) (mem : (key, v) ∈ t) :
    t.lookup key = some v := by
  obtain ⟨before, after, rfl⟩ := List.append_of_mem mem
  refine List.lookup_eq_some_iff.2 ⟨before, after, rfl, fun e he => ?_⟩
  rw [Ascending, List.map_append, List.pairwise_append] at ascending
  have less := ascending.2.2 e.1 (List.mem_map_of_mem he) key (by simp)
  rw [bne_iff_ne]
  rintro rfl
  exact String.lt_irrefl _ less

end Put

/-! ## Ordered values -/

/-- The value is no array and no table, or all tables in it list their keys in ascending order. -/
inductive Value.Ordered : Value → Prop where
  | scalar {v : Value} (noArray : ∀ items, v ≠ .array items)
    (noTable : ∀ entries, v ≠ .table entries) : Ordered v
  | array {items : List Value} (each : ∀ v ∈ items, Ordered v) : Ordered (.array items)
  | table {entries : Table} (keys : Ascending entries) (each : ∀ e ∈ entries, Ordered e.2) :
    Ordered (.table entries)

theorem Value.Ordered.ascending {entries : Table} (h : (Value.table entries).Ordered) :
    Ascending entries := by
  cases h with
  | scalar noArray noTable => exact absurd rfl (noTable entries)
  | table keys each => exact keys

theorem Value.Ordered.each {entries : Table} (h : (Value.table entries).Ordered) :
    ∀ e ∈ entries, e.2.Ordered := by
  cases h with
  | scalar noArray noTable => exact absurd rfl (noTable entries)
  | table keys each => exact each

/-! ## Ordered drafts -/

namespace Draft

/-- What stands in the draft lists its keys in ascending order. -/
inductive Ordered : Draft → Prop where
  | value {v : Value} (finished : v.Ordered) : Ordered (.value v)
  | table {i d : Bool} {entries : List (String × Draft)}
    (keys : (entries.map Prod.fst).Pairwise (· < ·)) (each : ∀ e ∈ entries, Ordered e.2) :
    Ordered (.table i d entries)
  | tables {items : List (List (String × Draft))}
    (each : ∀ entries ∈ items, Ordered (.table false false entries)) : Ordered (.tables items)

namespace Ordered

variable {d d' : Draft} {i i' b b' : Bool} {entries : List (String × Draft)}
  {items : List (List (String × Draft))} {path : List String} {key : String} {v : Value}

theorem empty : Draft.empty.Ordered := .table .nil (by simp)

theorem keys (h : (Draft.table i b entries).Ordered) :
    (entries.map Prod.fst).Pairwise (· < ·) := by
  cases h with
  | table keys each => exact keys

theorem lookup (h : (Draft.table i b entries).Ordered) (found : entries.lookup key = some d) :
    d.Ordered := by
  cases h with
  | table keys each => exact each _ (mem_of_lookup found)

theorem items_each (h : (Draft.tables items).Ordered) :
    ∀ entries ∈ items, (Draft.table false false entries).Ordered := by
  cases h with
  | tables each => exact each

/-- How a table came about has no part in its order. -/
theorem marked (i' b' : Bool) (h : (Draft.table i b entries).Ordered) :
    (Draft.table i' b' entries).Ordered := by
  cases h with
  | table keys each => exact .table keys each

theorem put (key : String) (h : (Draft.table i b entries).Ordered) (hd : d.Ordered) :
    (Draft.table i b (put key d entries)).Ordered := by
  cases h with
  | table keys each =>
    refine .table (pairwise_put key d keys) fun e he => ?_
    rcases mem_put he with rfl | he
    · exact hd
    · exact each e he

/-! ### Steps -/

theorem define {viaDots : Bool} (hv : v.Ordered) (h : d.Ordered)
    (step : Draft.define viaDots key v d = some d') : d'.Ordered := by
  cases d with
  | table i b entries =>
    rw [Draft.define] at step
    split at step
    · cases step
    · obtain rfl := Option.some.inj step
      exact h.put key (.value hv)
  | value v => cases step
  | tables items => cases step

theorem openTable (h : d.Ordered) (step : Draft.openTable key d = some d') : d'.Ordered := by
  cases d with
  | table i b entries =>
    rw [Draft.openTable] at step
    split at step
    · obtain rfl := Option.some.inj step
      exact h.put key empty
    · rename_i found
      obtain rfl := Option.some.inj step
      exact h.put key ((h.lookup found).marked false false)
    · cases step
  | value v => cases step
  | tables items => cases step

theorem openNext (h : d.Ordered) (step : Draft.openNext key d = some d') : d'.Ordered := by
  have first : (Draft.table false false []).Ordered := empty
  cases d with
  | table i b entries =>
    rw [Draft.openNext] at step
    split at step
    · obtain rfl := Option.some.inj step
      exact h.put key (.tables (List.forall_mem_singleton.2 first))
    · rename_i found
      obtain rfl := Option.some.inj step
      exact h.put key (.tables (List.forall_mem_cons.2 ⟨first, (h.lookup found).items_each⟩))
    · cases step
  | value v => cases step
  | tables items => cases step

/-- A change that keeps the order keeps it at the end of any path. -/
theorem update {dotted : Bool} {change : Draft → Option Draft}
    (keeps : ∀ {d d'}, d.Ordered → change d = some d' → d'.Ordered) (h : d.Ordered)
    (step : Draft.update dotted change path d = some d') : d'.Ordered := by
  induction path generalizing d d' with
  | nil =>
    rw [Draft.update] at step
    exact keeps h step
  | cons key path ih =>
    cases d with
    | value v => simp [Draft.update] at step
    | tables items => simp [Draft.update] at step
    | table i b entries =>
      rw [Draft.update] at step
      split at step
      · obtain ⟨child, made, step⟩ := Option.bind_eq_some_iff.1 step
        obtain rfl := Option.some.inj step
        exact h.put key (ih (empty.marked true dotted) made)
      · rename_i found
        split at step
        · cases step
        · obtain ⟨child, made, step⟩ := Option.bind_eq_some_iff.1 step
          obtain rfl := Option.some.inj step
          exact h.put key (ih (h.lookup found) made)
      · rename_i last others found
        obtain ⟨child, made, step⟩ := Option.bind_eq_some_iff.1 step
        have older := List.forall_mem_cons.1 (h.lookup found).items_each
        have newer := ih older.1 made
        split at step
        · obtain rfl := Option.some.inj step
          refine h.put key (.tables (List.forall_mem_cons.2 ⟨newer.marked false false, older.2⟩))
        · cases step
      · cases step

theorem assign (hv : v.Ordered) (h : d.Ordered) (step : Draft.assign path key v d = some d') :
    d'.Ordered :=
  update (define hv) h step

/-! ### Finished drafts -/

theorem entriesToTable_eq (entries : List (String × Draft)) :
    entriesToTable entries = entries.map fun e => (e.1, e.2.toValue) := by
  induction entries with
  | nil => rw [entriesToTable, List.map_nil]
  | cons e rest ih =>
    obtain ⟨key, d⟩ := e
    rw [entriesToTable, ih, List.map_cons]

theorem itemsToValues_eq (items : List (List (String × Draft))) :
    itemsToValues items = items.map fun entries => .table (entriesToTable entries) := by
  induction items with
  | nil => rw [itemsToValues, List.map_nil]
  | cons entries rest ih => rw [itemsToValues, ih, List.map_cons]

theorem toValue (h : d.Ordered) : d.toValue.Ordered := by
  induction h with
  | value finished =>
    rw [Draft.toValue]
    exact finished
  | table keys each ih =>
    rw [Draft.toValue, entriesToTable_eq]
    refine .table ?_ fun e he => ?_
    · rw [Ascending, List.map_map]
      exact keys
    · obtain ⟨d, hd, rfl⟩ := List.mem_map.1 he
      exact ih d hd
  | tables each ih =>
    rw [Draft.toValue, itemsToValues_eq]
    refine .array fun v hv => ?_
    obtain ⟨entries, he, rfl⟩ := List.mem_map.1 (List.mem_reverse.1 hv)
    have item := ih entries he
    rwa [Draft.toValue] at item

theorem toTable (h : d.Ordered) : (Value.table d.toTable).Ordered := by
  have finished := h.toValue
  unfold Draft.toTable
  split
  · rename_i e
    rwa [e] at finished
  · exact .table .nil (by simp)

end Ordered
end Draft

/-! ## What is read -/

theorem ordered_of_int64? {n : Int} {v : Value} (h : int64? n = some v) : v.Ordered := by
  unfold int64? at h
  split at h
  · obtain rfl := Option.some.inj h
    exact .scalar (by simp) (by simp)
  · cases h

theorem ordered_of_integer? {cs : List Char} {v : Value} (h : integer? cs = some v) :
    v.Ordered := by
  unfold integer? at h
  split at h
  all_goals
    obtain ⟨ds, -, h⟩ := Option.bind_eq_some_iff.1 h
    exact ordered_of_int64? h

theorem ordered_of_float? {cs : List Char} {v : Value} (h : float? cs = some v) : v.Ordered := by
  have float : (Value.float (.ofList cs)).Ordered := .scalar (by simp) (by simp)
  unfold float? at h
  dsimp only at h
  split at h
  · obtain rfl := Option.some.inj h
    exact float
  · obtain ⟨parts, -, h⟩ := Option.bind_eq_some_iff.1 h
    split at h
    · cases h
    · obtain rfl := Option.some.inj h
      exact float

theorem ordered_of_scalar? {cs : List Char} {v : Value} (h : scalar? cs = some v) :
    v.Ordered := by
  unfold scalar? at h
  split at h
  · obtain rfl := Option.some.inj h
    exact .scalar (by simp) (by simp)
  · split at h
    · obtain rfl := Option.some.inj h
      exact .scalar (by simp) (by simp)
    · split at h
      · obtain rfl := Option.some.inj h
        exact .scalar (by simp) (by simp)
      · cases integer : integer? cs with
        | some w =>
          rw [integer] at h
          obtain rfl := Option.some.inj h
          exact ordered_of_integer? integer
        | none =>
          rw [integer] at h
          exact ordered_of_float? h

theorem ordered_of_readScalar {cs rest : List Char} {v : Value}
    (h : readScalar cs = some (v, rest)) : v.Ordered := by
  unfold readScalar at h
  dsimp only at h
  obtain ⟨w, scalar, e⟩ := Option.map_eq_some_iff.1 h
  obtain ⟨rfl, -⟩ := Prod.mk.inj e
  exact ordered_of_scalar? scalar

/-- What is read with so many calls is ordered. -/
structure ReadsOrdered (fuel : Nat) : Prop where
  value : ∀ {depth cs v rest}, readValue fuel depth cs = some (v, rest) → v.Ordered
  items : ∀ {depth cs vs rest}, readItems fuel depth cs = some (vs, rest) → ∀ v ∈ vs, v.Ordered
  pairs : ∀ {depth d cs d' rest}, d.Ordered → readPairs fuel depth d cs = some (d', rest) →
    d'.Ordered

namespace ReadsOrdered

variable {fuel depth : Nat} {cs rest : List Char} {v : Value} {vs : List Value} {d d' : Draft}

theorem value_succ (ih : ReadsOrdered fuel) (h : readValue (fuel + 1) depth cs = some (v, rest)) :
    v.Ordered := by
  unfold readValue at h
  split at h
  · obtain ⟨text, -, e⟩ := Option.map_eq_some_iff.1 h
    obtain ⟨rfl, -⟩ := Prod.mk.inj e
    exact .scalar (by simp) (by simp)
  · obtain ⟨text, -, e⟩ := Option.map_eq_some_iff.1 h
    obtain ⟨rfl, -⟩ := Prod.mk.inj e
    exact .scalar (by simp) (by simp)
  · split at h
    · cases h
    · obtain ⟨read, each, e⟩ := Option.map_eq_some_iff.1 h
      obtain ⟨rfl, -⟩ := Prod.mk.inj e
      exact .array (ih.items each)
  · split at h
    · cases h
    · split at h
      · obtain ⟨rfl, -⟩ := Prod.mk.inj (Option.some.inj h)
        exact .table .nil (by simp)
      · obtain ⟨read, filled, e⟩ := Option.map_eq_some_iff.1 h
        obtain ⟨rfl, -⟩ := Prod.mk.inj e
        exact (ih.pairs .empty filled).toValue
  · exact ordered_of_readScalar h

theorem items_succ (ih : ReadsOrdered fuel)
    (h : readItems (fuel + 1) depth cs = some (vs, rest)) : ∀ v ∈ vs, v.Ordered := by
  unfold readItems at h
  obtain ⟨here, -, h⟩ := Option.bind_eq_some_iff.1 h
  split at h
  · obtain ⟨rfl, -⟩ := Prod.mk.inj (Option.some.inj h)
    simp
  · obtain ⟨⟨v, behind⟩, first, h⟩ := Option.bind_eq_some_iff.1 h
    obtain ⟨next, -, h⟩ := Option.bind_eq_some_iff.1 h
    split at h
    · obtain ⟨⟨vs, last⟩, later, h⟩ := Option.bind_eq_some_iff.1 h
      obtain ⟨rfl, -⟩ := Prod.mk.inj (Option.some.inj h)
      exact List.forall_mem_cons.2 ⟨ih.value first, ih.items later⟩
    · obtain ⟨rfl, -⟩ := Prod.mk.inj (Option.some.inj h)
      exact List.forall_mem_singleton.2 (ih.value first)
    · cases h

theorem pairs_succ (ih : ReadsOrdered fuel) (hd : d.Ordered)
    (h : readPairs (fuel + 1) depth d cs = some (d', rest)) : d'.Ordered := by
  unfold readPairs at h
  obtain ⟨⟨path, key, behind⟩, -, h⟩ := Option.bind_eq_some_iff.1 h
  dsimp only at h
  split at h
  · obtain ⟨⟨v, next⟩, read, h⟩ := Option.bind_eq_some_iff.1 h
    obtain ⟨e, assigned, h⟩ := Option.bind_eq_some_iff.1 h
    have he := hd.assign (ih.value read) assigned
    split at h
    · exact ih.pairs he h
    · obtain ⟨rfl, -⟩ := Prod.mk.inj (Option.some.inj h)
      exact he
    · cases h
  · cases h

end ReadsOrdered

theorem readsOrdered (fuel : Nat) : ReadsOrdered fuel := by
  induction fuel with
  | zero => exact ⟨fun h => (by cases h), fun h => (by cases h), fun _ h => (by cases h)⟩
  | succ fuel ih => exact ⟨ih.value_succ, ih.items_succ, ih.pairs_succ⟩

/-! ## Lines -/

theorem ordered_of_readHeader {p q : Progress} {cs rest : List Char} (hp : p.root.Ordered)
    (h : readHeader p cs = some (q, rest)) : q.root.Ordered := by
  obtain ⟨⟨path, key, behind⟩, -, h⟩ := Option.bind_eq_some_iff.1 h
  dsimp only at h
  split at h
  · obtain ⟨root, opened, h⟩ := Option.bind_eq_some_iff.1 h
    obtain ⟨rfl, -⟩ := Prod.mk.inj (Option.some.inj h)
    exact hp.update .openTable opened
  · cases h

theorem ordered_of_readArrayHeader {p q : Progress} {cs rest : List Char} (hp : p.root.Ordered)
    (h : readArrayHeader p cs = some (q, rest)) : q.root.Ordered := by
  obtain ⟨⟨path, key, behind⟩, -, h⟩ := Option.bind_eq_some_iff.1 h
  dsimp only at h
  split at h
  · obtain ⟨root, opened, h⟩ := Option.bind_eq_some_iff.1 h
    obtain ⟨rfl, -⟩ := Prod.mk.inj (Option.some.inj h)
    exact hp.update .openNext opened
  · cases h

theorem ordered_of_readPair {p q : Progress} {cs rest : List Char} (hp : p.root.Ordered)
    (h : readPair p cs = some (q, rest)) : q.root.Ordered := by
  obtain ⟨⟨path, key, behind⟩, -, h⟩ := Option.bind_eq_some_iff.1 h
  dsimp only at h
  split at h
  · obtain ⟨⟨v, next⟩, read, h⟩ := Option.bind_eq_some_iff.1 h
    obtain ⟨root, assigned, h⟩ := Option.bind_eq_some_iff.1 h
    obtain ⟨rfl, -⟩ := Prod.mk.inj (Option.some.inj h)
    exact hp.update (fun hd => hd.assign ((readsOrdered _).value read)) assigned
  · cases h

theorem ordered_of_readLine {p q : Progress} {cs rest : List Char} (hp : p.root.Ordered)
    (h : readLine p cs = some (q, rest)) : q.root.Ordered := by
  unfold readLine at h
  split at h
  · exact ordered_of_readArrayHeader hp h
  · exact ordered_of_readHeader hp h
  · exact ordered_of_readPair hp h

theorem ordered_of_readLines {fuel : Nat} {p : Progress} {cs : List Char} {d : Draft}
    (hp : p.root.Ordered) (h : readLines fuel p cs = some d) : d.Ordered := by
  induction fuel generalizing p cs with
  | zero =>
    rw [readLines] at h
    obtain ⟨here, -, h⟩ := Option.bind_eq_some_iff.1 h
    split at h
    · obtain rfl := Option.some.inj h
      exact hp
    · cases h
  | succ fuel ih =>
    rw [readLines] at h
    obtain ⟨here, -, h⟩ := Option.bind_eq_some_iff.1 h
    split at h
    · obtain rfl := Option.some.inj h
      exact hp
    · obtain ⟨⟨q, behind⟩, line, h⟩ := Option.bind_eq_some_iff.1 h
      obtain ⟨next, -, h⟩ := Option.bind_eq_some_iff.1 h
      exact ih (ordered_of_readLine hp line) h

/-- **Tables that are read are ordered,** and so are all tables in them. -/
theorem ordered_of_read? {text : String} {t : Table} (h : read? text = some t) :
    (Value.table t).Ordered := by
  obtain ⟨d, lines, rfl⟩ := Option.map_eq_some_iff.1 h
  exact (ordered_of_readLines .empty lines).toTable

end LineTint.Toml
