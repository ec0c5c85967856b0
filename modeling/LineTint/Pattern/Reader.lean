import LineTint.Pattern.Symbol

/-!
# Written patterns

`Pattern.read?` reads a pattern from its written form: alternatives separated
by bars, parts one after the other, quantifiers after a part, groups in
parentheses, and flags that hold to the end of the group they stand in. It
reads the symbols from left to right and keeps the groups that are still open.

What it reads is a part of the syntax of the `regex` crate (see the symbols), and
it knows none of the crate's limits on the depth of a pattern and on the size of
what is compiled from it. So it answers for the crate on the patterns of the
languages and on written forms of words and delimiters; a statement about every
written pattern takes the engine as a parameter (`Lexicon.rulesWith`).
-/

namespace LineTint.Pattern
set_option autoImplicit false

/-- The flags in force at a place of a written pattern. -/
abbrev Flags := List Flag

/-- The flags a written pattern begins with. -/
def Flags.initial : Flags := [.unicode]

/-- The flags after a change. -/
def Flags.update (fs : Flags) (change : FlagChange) : Flags :=
  change.foldl (fun fs entry =>
    let others := fs.filter (· ≠ entry.1)
    if entry.2 then entry.1 :: others else others) fs

/-- A character under the flags. Outside of ASCII it has no other cases where
Unicode is turned off. -/
def Flags.literal (fs : Flags) (c : Char) : Pattern :=
  if .ignoreCase ∈ fs ∧ (.unicode ∈ fs ∨ c.toNat < 128) then
    let variants := CharClass.ignoringCase (.single c)
    .char (if .unicode ∈ fs then variants else .inter .ascii variants)
  else .char (.single c)

/-- A class under the flags, which must be one of ASCII where Unicode is turned
off. -/
def Flags.char? (fs : Flags) (cls : CharClass) : Option Pattern := do
  let cls ← if .unicode ∈ fs then some cls else cls.ascii?
  if .ignoreCase ∈ fs then
    some (.char (if .unicode ∈ fs then cls.ignoringCase else .inter .ascii cls.ignoringCase))
  else some (.char cls)

/-- What a dot matches under the flags. Where Unicode is turned off it would
match bytes that are no text. -/
def Flags.dot? (fs : Flags) : Option CharClass :=
  if .unicode ∉ fs then none
  else if .dotAll ∈ fs then some .all
  else if .crlf ∈ fs then some (.compl (.union (.single '\r') (.single '\n')))
  else some (.compl (.single '\n'))

/-- The place that a caret stands for. -/
def Flags.caret (fs : Flags) : Anchor :=
  if .multiLine ∉ fs then .textStart else if .crlf ∈ fs then .lineStartCrlf else .lineStart

/-- The place that a dollar sign stands for. -/
def Flags.dollar (fs : Flags) : Anchor :=
  if .multiLine ∉ fs then .textEnd else if .crlf ∈ fs then .lineEndCrlf else .lineEnd

/-- What has been read of a group: its finished alternatives and the parts of
the one being read, both last first, the flags in force, and whether the last
thing read is a part that a quantifier can repeat. -/
structure Group where
  branches : List Pattern
  parts : List Pattern
  flags : Flags
  repeatable : Bool

/-- A group of which nothing has been read. -/
def Group.start (flags : Flags) : Group := ⟨[], [], flags, false⟩

/-- The group with one more part. -/
def Group.add (g : Group) (p : Pattern) : Group :=
  { g with parts := p :: g.parts, repeatable := true }

/-- The group after a bar. -/
def Group.bar (g : Group) : Group :=
  { g with branches := sequence g.parts.reverse :: g.branches, parts := [], repeatable := false }

/-- The pattern of a finished group. -/
def Group.pattern (g : Group) : Pattern :=
  g.branches.foldl (fun rest branch => .alt branch rest) (sequence g.parts.reverse)

/-- How many constructors a pattern is made of. -/
def size : Pattern → Nat
  | .empty | .char _ | .anchor _ => 1
  | .seq p q | .alt p q => size p + size q + 1
  | .plus _ p | .more _ p => size p + 1

/-- The largest size that counted repetitions may give to a pattern. -/
def maxSize : Nat := 262144

/-- As many rounds of a pattern as counted and then `last`. -/
def rounds (p : Pattern) (last : Pattern) : Nat → Pattern
  | 0 => last
  | n + 1 => p.andThen (rounds p last n)

/-- Up to `n` rounds of a pattern. -/
def upTo (greedy : Bool) (p : Pattern) : Nat → Pattern
  | 0 => .empty
  | n + 1 => optional greedy (p.andThen (upTo greedy p n))

/-- From `least` to `most` rounds of a pattern, written out; `none` if that
makes it too large. -/
def repeated? (least : Nat) (most : Option Nat) (greedy : Bool) (p : Pattern) : Option Pattern :=
  if maxSize < (most.getD (least + 1)) * (size p + 2) then none
  else
    match least, most with
    | 0, none => some (star greedy p)
    | n + 1, none => some (rounds p (.plus greedy p) n)
    | n, some m => some (rounds p (upTo greedy p (m - n)) n)

/-- What has been read of a written pattern: the innermost open group, the
groups around it from the inside out, and the group names so far. -/
structure Reading where
  inner : Group
  outer : List Group
  names : List (List Char)

/-- The reading with one more part of the innermost group. -/
def Reading.add (r : Reading) (p : Pattern) : Reading :=
  { r with inner := r.inner.add p }

/-- The reading after one more symbol. -/
def Reading.step (r : Reading) : Symbol → Option Reading
  | .literal c => some (r.add (r.inner.flags.literal c))
  | .byte c =>
    if .unicode ∈ r.inner.flags ∨ c.toNat < 128 then some (r.add (r.inner.flags.literal c)) else none
  | .oneOf cls => (r.inner.flags.char? cls).map r.add
  | .dot => r.inner.flags.dot?.map fun cls => r.add (.char cls)
  | .caret => some (r.add (.anchor r.inner.flags.caret))
  | .dollar => some (r.add (.anchor r.inner.flags.dollar))
  | .anchor a => some (r.add (.anchor (if .unicode ∈ r.inner.flags then a else a.ascii)))
  | .quantifier least most greedy =>
    match r.inner.repeatable, r.inner.parts with
    | true, p :: parts => do
      let p ← repeated? least most (greedy != decide (.swapGreed ∈ r.inner.flags)) p
      some { r with inner := { r.inner with parts := p :: parts } }
    | _, _ => none
  | .bar => some { r with inner := r.inner.bar }
  | .openGroup name change =>
    let opened : Reading :=
      { inner := .start (r.inner.flags.update change), outer := r.inner :: r.outer
        names := name.toList ++ r.names }
    if name.any (r.names.contains ·) then none else some opened
  | .setFlags change =>
    some { r with
      inner := { r.inner with flags := r.inner.flags.update change, repeatable := false } }
  | .closeGroup =>
    match r.outer with
    | [] => none
    | g :: outer => some { r with inner := g.add r.inner.pattern, outer }

/-- Reads a written pattern. A text beyond the syntax that is read here has no
reading, and neither has one that is no pattern. -/
def read? (text : String) : Option Pattern := do
  let symbols ← Symbol.readAll text.toList
  let r ← symbols.foldlM Reading.step ⟨.start .initial, [], []⟩
  match r.outer with
  | [] => some r.inner.pattern
  | _ :: _ => none

end LineTint.Pattern
