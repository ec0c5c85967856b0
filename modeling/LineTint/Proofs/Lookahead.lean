import LineTint.Proofs.Scanned

/-!
# The look-ahead of a scan

A scan keeps for each rule what it knows of the rule's next match. `Watch.Agrees` says when that
knowledge is right at a place; it may lag behind, since a rule is not looked at where one before
it has a token. The knowledge stays right as the scan goes on (`Watch.Agrees.next`), and what a
look leaves is what a fresh search finds (`Watch.look_eq`). So the watches give the same token
as the rules searched afresh (`Knows.firstHit`), and a scan finds what `Scanned` says
(`spansFrom_scanned`).
-/

namespace LineTint.Scan
set_option autoImplicit false
open Text

/-- What a search for the rule of a watch finds at a place. -/
def Watch.search (w : Watch) (before : Option Char) (offset : Nat) (rest : List Char) :
    Option (Nat × Nat) :=
  w.rule.pattern.find? before offset rest

/-- What a watch knows is right at a place. A match that begins before the place says nothing. -/
def Watch.Agrees (w : Watch) (before : Option Char) (offset : Nat) (rest : List Char) : Prop :=
  match w.ahead with
  | .stale => True
  | .found start stop => offset ≤ start → w.search before offset rest = some (start, stop)
  | .exhausted => w.search before offset rest = none

/-- The knowledge that a search leaves. -/
def Ahead.ofSearch : Option (Nat × Nat) → Ahead
  | some (start, stop) => .found start stop
  | none => .exhausted

section Watch

variable {w : Watch} {before : Option Char} {offset : Nat} {rest : List Char}

theorem Watch.agrees_start (r : Rule) : (Watch.start r).Agrees before offset rest := trivial

/-- What is right at a place is right behind the next character. -/
theorem Watch.Agrees.next {c : Char} (h : w.Agrees before offset (c :: rest)) :
    w.Agrees (some c) (offset + c.utf8Size) rest := by
  have := c.utf8Size_pos
  unfold Watch.Agrees at h ⊢
  split
  · trivial
  · rename_i start stop e
    rw [e] at h
    intro ahead
    exact Pattern.find?_of_found (h (by omega)) (by omega)
  · rename_i e
    rw [e] at h
    exact Pattern.find?_of_none h

/-- Looking leaves what a fresh search finds. -/
theorem Watch.look_eq (h : w.Agrees before offset rest) :
    w.look before offset rest = { w with ahead := .ofSearch (w.search before offset rest) } := by
  obtain ⟨rule, ahead⟩ := w
  have fresh : (match rule.pattern.find? before offset rest with
      | some (start, stop) => (⟨rule, .found start stop⟩ : Watch)
      | none => ⟨rule, .exhausted⟩) =
      ⟨rule, .ofSearch (rule.pattern.find? before offset rest)⟩ := by
    cases rule.pattern.find? before offset rest <;> rfl
  cases ahead with
  | stale => exact fresh
  | found start stop =>
    by_cases behind : start < offset
    · simp only [Watch.look, Ahead.current, behind, if_true]
      exact fresh
    · have found : rule.pattern.find? before offset rest = some (start, stop) := h (by omega)
      simp only [Watch.look, Ahead.current, behind, if_false, Watch.search, found, Ahead.ofSearch]
  | exhausted =>
    have none_left : rule.pattern.find? before offset rest = none := h
    simp only [Watch.look, Ahead.current, Watch.search, none_left, Ahead.ofSearch]

theorem Watch.agrees_look (h : w.Agrees before offset rest) :
    (w.look before offset rest).Agrees before offset rest := by
  rw [Watch.look_eq h]
  cases found : w.search before offset rest with
  | none => exact found
  | some r => exact fun _ => found

/-- After a look the watch has a span at the cursor exactly if its rule has a token there. -/
theorem Watch.hit?_look (h : w.Agrees before offset rest) :
    (w.look before offset rest).hit? offset = (w.rule.token? before rest).map (spanAt offset) := by
  rw [Watch.look_eq h, ← hitAt?_find?]
  show Watch.hit? offset ⟨w.rule, .ofSearch (w.search before offset rest)⟩ =
    hitAt? w.rule.kind offset (w.search before offset rest)
  cases w.search before offset rest <;> rfl

end Watch

/-- The watches are those of the rules, and all of them are right at the place. -/
structure Knows (rules : List Rule) (before : Option Char) (offset : Nat) (rest : List Char)
    (ws : List Watch) : Prop where
  rules : ws.map (·.rule) = rules
  agrees : ∀ w ∈ ws, w.Agrees before offset rest

section Knows

variable {rules : List Rule} {before : Option Char} {offset : Nat} {rest : List Char}
  {ws : List Watch}

theorem knows_start (rules : List Rule) (before : Option Char) (offset : Nat)
    (rest : List Char) : Knows rules before offset rest (rules.map Watch.start) where
  rules := by
    rw [List.map_map]
    exact List.map_id rules
  agrees w hw := by
    obtain ⟨r, _, rfl⟩ := List.mem_map.1 hw
    exact Watch.agrees_start r

theorem Knows.next {c : Char} (h : Knows rules before offset (c :: rest) ws) :
    Knows rules (some c) (offset + c.utf8Size) rest ws :=
  ⟨h.rules, fun w hw => (h.agrees w hw).next⟩

theorem Knows.cons {w : Watch} (hw : w.Agrees before offset rest)
    (h : Knows rules before offset rest ws) :
    Knows (w.rule :: rules) before offset rest (w :: ws) where
  rules := by rw [List.map_cons, h.rules]
  agrees := List.forall_mem_cons.2 ⟨hw, h.agrees⟩

theorem Knows.skip {a : List Char} (h : Knows rules before offset (a ++ rest) ws) :
    Knows rules (lastOf before a) (offset + byteLength a) rest ws := by
  induction a generalizing before offset with
  | nil => exact h
  | cons c a ih =>
    have := ih h.next
    rwa [Nat.add_assoc, ← byteLength_cons] at this

/-- The watches find the token of the rules, and still are right after it. -/
theorem Knows.firstHit (h : Knows rules before offset rest ws) :
    (firstHit before offset rest ws).1 = (token? rules before rest).map (spanAt offset) ∧
      Knows rules before offset rest (firstHit before offset rest ws).2 := by
  induction ws generalizing rules with
  | nil =>
    obtain rfl := h.rules
    exact ⟨rfl, h⟩
  | cons w ws ih =>
    obtain rfl := h.rules
    have hw := h.agrees w List.mem_cons_self
    have later : Knows (ws.map (·.rule)) before offset rest ws :=
      ⟨rfl, fun v hv => h.agrees v (List.mem_cons_of_mem w hv)⟩
    obtain ⟨hit, left⟩ := ih later
    have looked := Watch.agrees_look hw
    have same : (w.look before offset rest).rule = w.rule := by rw [Watch.look_eq hw]
    simp only [Scan.firstHit, Watch.hit?_look hw, List.map_cons, token?, List.findSome?_cons]
    cases w.rule.token? before rest with
    | some t => exact ⟨rfl, same ▸ later.cons looked⟩
    | none => exact ⟨hit, same ▸ left.cons looked⟩

end Knows

/-! ## The scan -/

/-- The scan that has read `a`, and whose cursor is behind `b` or was passed with the last
character of `a`, finds what stands behind `b`. The induction is on the text that is left; the
watches are right at every place of it, read or jumped over. -/
theorem spansFrom_scanned {rules : List Rule} {a b rest text : List Char} {cursor : Nat}
    {ws : List Watch} (e : text = b ++ rest)
    (h : Knows rules (lastOf none a) (byteLength a) text ws)
    (target : max cursor (byteLength a) = byteLength (a ++ b)) :
    Scanned rules (a ++ b) rest (spansFrom ws cursor (lastOf none a) (byteLength a) text) := by
  induction text generalizing a b rest cursor ws with
  | nil =>
    obtain ⟨rfl, rfl⟩ := List.append_eq_nil_iff.1 e.symm
    exact .done _
  | cons c text ih =>
    have read : lastOf none (a ++ [c]) = some c := by simp
    have offset : byteLength (a ++ [c]) = byteLength a + c.utf8Size := by simp
    have width := c.utf8Size_pos
    cases b with
    | cons d b =>
      obtain ⟨rfl, rfl⟩ : c = d ∧ text = b ++ rest := by simpa using e
      have ahead : byteLength a < cursor := by
        simp only [byteLength_append, byteLength_cons] at target
        omega
      have known : Knows rules (lastOf none (a ++ [c])) (byteLength (a ++ [c])) (b ++ rest) ws := by
        rw [read, offset]
        exact h.next
      have target' : max cursor (byteLength (a ++ [c])) = byteLength (a ++ [c] ++ b) := by
        simp only [byteLength_append, byteLength_cons, byteLength_nil] at target ⊢
        omega
      have later := ih rfl known target'
      rw [read, offset] at later
      simp only [spansFrom, ahead, if_true]
      simpa using later
    | nil =>
      subst e
      have behind : ¬byteLength a < cursor := by
        simp only [List.append_nil] at target
        omega
      have hit := h.firstHit
      simp only [spansFrom, behind, if_false, List.append_nil]
      generalize firstHit (lastOf none a) (byteLength a) (c :: text) ws = looked at hit ⊢
      obtain ⟨span, left⟩ := looked
      obtain ⟨rfl, known⟩ := hit
      have behind : Knows rules (lastOf none (a ++ [c])) (byteLength (a ++ [c])) text left := by
        rw [read, offset]
        exact known.next
      cases here : token? rules (lastOf none a) (c :: text) with
      | some t =>
        obtain ⟨k, m⟩ := t
        obtain ⟨ne, d, hd⟩ := token?_spec here
        obtain ⟨c', m, rfl⟩ := List.exists_cons_of_ne_nil ne
        obtain ⟨rfl, rfl⟩ : c' = c ∧ m ++ d = text := by simpa using hd
        have target' : max (byteLength a + byteLength (c' :: m)) (byteLength (a ++ [c'])) =
            byteLength (a ++ [c'] ++ m) := by
          simp only [byteLength_append, byteLength_cons, byteLength_nil]
          omega
        have later := ih rfl behind target'
        rw [read, offset, List.append_assoc] at later
        exact .token here later
      | none =>
        have target' : max (byteLength a) (byteLength (a ++ [c])) = byteLength (a ++ [c] ++ []) := by
          simp only [byteLength_append, byteLength_cons, byteLength_nil]
          omega
        have later := ih rfl behind target'
        rw [read, offset, List.append_nil] at later
        exact .skip here later

/-- **The scan of a line** finds the token of the rules at every place it comes to. -/
theorem spans_scanned (rules : List Rule) (line : List Char) :
    Scanned rules [] line (spans rules line) :=
  spansFrom_scanned (a := []) (b := []) rfl (knows_start rules none 0 line) rfl

end LineTint.Scan
