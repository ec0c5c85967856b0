import LineTint.Proofs.OutputLimit
import Mathlib.Data.List.Forall2

/-!
# What a screen shows

A screen reads what a terminal writes: it takes the control sequences for changes of its look and
shows every other character with the look it has. `Shows` is the judgement that a text, read with
one look, shows some cells and leaves another look; texts are read one after the other
(`Shows.append`), so each thing that a terminal writes has one lemma. The look that a run or a
line number sets is always ended behind it, and so `display_lines` says that the lines of a text
are shown with the styles of their runs and nothing else, and leave the screen as it was.
-/

namespace LineTint.Terminal
set_option autoImplicit false
open Text

/-! ## Screens -/

/-- How a screen shows a character. -/
structure Look where
  foreground : Option Color
  bold : Bool
  dim : Bool
  italic : Bool
  deriving DecidableEq, Repr

namespace Look

/-- The look that a screen begins with. -/
def plain : Look := ⟨none, false, false, false⟩

/-- The look of line numbers. -/
def faint : Look := { plain with dim := true }

/-- The look that a style asks for. -/
def ofStyle (s : Style) : Look := ⟨s.foreground, s.bold, false, s.italic⟩

/-- The look after the parameters of a sequence; `none` if one of them is not known. -/
def after? (l : Look) : List Nat → Option Look
  | [] => some l
  | 0 :: ps => plain.after? ps
  | 1 :: ps => after? { l with bold := true } ps
  | 2 :: ps => after? { l with dim := true } ps
  | 3 :: ps => after? { l with italic := true } ps
  | 38 :: 2 :: r :: g :: b :: ps =>
    if r < 256 ∧ g < 256 ∧ b < 256 then
      after? { l with foreground := some ⟨r.toUInt8, g.toUInt8, b.toUInt8⟩ } ps
    else none
  | _ => none

end Look

/-- A character on a screen. -/
structure Cell where
  char : Char
  look : Look
  deriving DecidableEq, Repr

/-- Where in a control sequence a screen is. -/
inductive Reading where
  /-- In no sequence. -/
  | text
  /-- Behind the escape character. -/
  | escape
  /-- Behind some parameters and the digits of another one. -/
  | parameter (before : List Nat) (number : Nat)
  deriving DecidableEq, Repr

/-- The cells that a screen shows, the look of the next one, and where in a control sequence the
screen is. -/
structure Screen where
  cells : List Cell
  look : Look
  reading : Reading
  deriving DecidableEq, Repr

namespace Screen

/-- A screen that shows nothing yet. -/
def blank : Screen := ⟨[], .plain, .text⟩

/-- The screen after one more character; `none` if that is no control sequence it knows. -/
def read? (s : Screen) (c : Char) : Option Screen :=
  match s.reading with
  | .text =>
    if c = '\x1b' then some { s with reading := .escape }
    else some { s with cells := s.cells ++ [⟨c, s.look⟩] }
  | .escape => if c = '[' then some { s with reading := .parameter [] 0 } else none
  | .parameter before n =>
    if c.isDigit then some { s with reading := .parameter before (10 * n + (c.toNat - '0'.toNat)) }
    else if c = ';' then some { s with reading := .parameter (before ++ [n]) 0 }
    else if c = 'm' then
      (s.look.after? (before ++ [n])).map fun look => { s with look, reading := .text }
    else none

/-- The screen after a text. -/
def readAll? (s : Screen) (cs : List Char) : Option Screen :=
  cs.foldlM read? s

theorem readAll?_append (s : Screen) (a b : List Char) :
    s.readAll? (a ++ b) = (s.readAll? a).bind fun s => s.readAll? b :=
  List.foldlM_append

/-- The screen after bytes that are written to it. -/
def display? (bytes : List UInt8) : Option Screen :=
  (Text.decode? bytes).bind fun text => blank.readAll? text.toList

end Screen

/-! ## Reading texts and control sequences -/

/-- The text, read with the first look, shows the cells and leaves the second look. -/
def Shows (cs : List Char) (l : Look) (shown : List Cell) (l' : Look) : Prop :=
  ∀ cells, (⟨cells, l, .text⟩ : Screen).readAll? cs = some ⟨cells ++ shown, l', .text⟩

section Shows

variable {a b cs : List Char} {l l' l'' : Look} {x y : List Cell}

theorem Shows.nil (l : Look) : Shows [] l [] l := by
  intro cells
  rw [List.append_nil]
  rfl

theorem Shows.append (first : Shows a l x l') (then' : Shows b l' y l'') :
    Shows (a ++ b) l (x ++ y) l'' := by
  intro cells
  rw [Screen.readAll?_append, first cells, Option.bind_some, then' (cells ++ x),
    List.append_assoc]

/-- A text without the escape character is shown as it is. -/
theorem shows_text (free : '\x1b' ∉ cs) (l : Look) : Shows cs l (cs.map (⟨·, l⟩)) l := by
  induction cs with
  | nil => exact .nil l
  | cons c cs ih =>
    rw [List.mem_cons, not_or] at free
    have one : Shows [c] l [⟨c, l⟩] l := by
      intro cells
      have step : (⟨cells, l, .text⟩ : Screen).read? c = some ⟨cells ++ [⟨c, l⟩], l, .text⟩ :=
        if_neg (Ne.symm free.1)
      rw [Screen.readAll?, List.foldlM_cons, step]
      rfl
    exact one.append (ih free.2)

/-- The digits of a number are read as the number. -/
theorem readAll?_digits (cells : List Cell) (l : Look) (before : List Nat) (k : Nat)
    (digits : ∀ c ∈ cs, c.isDigit = true) :
    (⟨cells, l, .parameter before k⟩ : Screen).readAll? cs =
      some ⟨cells, l, .parameter before (Nat.ofDigitChars 10 cs k)⟩ := by
  induction cs generalizing k with
  | nil => rfl
  | cons c cs ih =>
    obtain ⟨digit, digits⟩ := List.forall_mem_cons.1 digits
    have step : (⟨cells, l, .parameter before k⟩ : Screen).read? c =
        some ⟨cells, l, .parameter before (10 * k + (c.toNat - '0'.toNat))⟩ := if_pos digit
    rw [Screen.readAll?, List.foldlM_cons, step, Nat.ofDigitChars_cons]
    exact ih _ digits

theorem readAll?_toDigits (cells : List Cell) (l : Look) (before : List Nat) (n : Nat) :
    (⟨cells, l, .parameter before 0⟩ : Screen).readAll? (Nat.toDigits 10 n) =
      some ⟨cells, l, .parameter before n⟩ := by
  have digits : ∀ c ∈ Nat.toDigits 10 n, c.isDigit = true :=
    fun c hc => Nat.isDigit_of_mem_toDigits (by decide) (by decide) hc
  rw [readAll?_digits cells l before 0 digits, Nat.ofDigitChars_ten_toDigits]

/-- Parameters in their written form. -/
def parameters (ps : List Nat) : List Char :=
  [';'].intercalate (ps.map (Nat.toDigits 10))

/-- Parameters in their written form and the end of the sequence change the look. -/
theorem readAll?_parameters (cells : List Cell) (before : List Nat) (p : Nat) (ps : List Nat)
    (known : l.after? (before ++ p :: ps) = some l') :
    (⟨cells, l, .parameter before 0⟩ : Screen).readAll? (parameters (p :: ps) ++ ['m']) =
      some ⟨cells, l', .text⟩ := by
  induction ps generalizing before p with
  | nil =>
    have close : (⟨cells, l, .parameter before p⟩ : Screen).readAll? ['m'] =
        (l.after? (before ++ [p])).map fun look => ⟨cells, look, .text⟩ := by
      cases h : l.after? (before ++ [p]) <;>
        simp [Screen.readAll?, Screen.read?, h]
    rw [parameters, List.map_singleton, List.intercalate_singleton, Screen.readAll?_append,
      readAll?_toDigits, Option.bind_some, close, known]
    rfl
  | cons q ps ih =>
    have shape : parameters (p :: q :: ps) ++ ['m'] =
        Nat.toDigits 10 p ++ ([';'] ++ (parameters (q :: ps) ++ ['m'])) := by
      simp [parameters, List.intercalate_cons_cons]
    have next : (⟨cells, l, .parameter before p⟩ : Screen).readAll? [';'] =
        some ⟨cells, l, .parameter (before ++ [p]) 0⟩ := rfl
    rw [shape, Screen.readAll?_append, readAll?_toDigits, Option.bind_some,
      Screen.readAll?_append, next, Option.bind_some]
    exact ih (before ++ [p]) q (by rwa [List.append_assoc])

/-- A control sequence shows nothing and changes the look. -/
theorem shows_sequence {p : Nat} {ps : List Nat} {text : String}
    (written : text.toList = parameters (p :: ps)) (known : l.after? (p :: ps) = some l') :
    Shows (sequence text).toList l [] l' := by
  intro cells
  have shape : (sequence text).toList = ['\x1b', '['] ++ (parameters (p :: ps) ++ ['m']) := by
    simp [sequence, written]
  have opening : (⟨cells, l, .text⟩ : Screen).readAll? ['\x1b', '['] =
      some ⟨cells, l, .parameter [] 0⟩ := rfl
  rw [shape, Screen.readAll?_append, opening, Option.bind_some, List.append_nil]
  exact readAll?_parameters cells [] p ps known

example : Screen.blank.readAll? "\x1b[2;38;2;1;20;255ma\x1b[0mb".toList =
    some ⟨[⟨'a', ⟨some ⟨1, 20, 255⟩, false, true, false⟩⟩, ⟨'b', .plain⟩], .plain, .text⟩ := by
  decide

end Shows

/-! ## What is shown of runs and lines -/

/-- The cells of a text. -/
def cellsOf (look : Look) (text : String) : List Cell :=
  text.toList.map (⟨·, look⟩)

/-- The look of the runs of a kind: the style that the theme has for it, plain without a kind. -/
def kindLook (theme : Theme) : Option TokenKind → Look
  | none => .plain
  | some kind => .ofStyle (theme.style kind)

/-- The cells of a run: its text in the look of its kind. -/
def runCells (theme : Theme) (r : Run) : List Cell :=
  cellsOf (kindLook theme r.kind) r.text

/-- The cells in front of a line: its number, if line numbers are shown. -/
def gutterCells (lineNumbers : Bool) (width number : Nat) : List Cell :=
  if lineNumbers then cellsOf .faint (label width number) else []

/-- The cell of a newline between two lines. -/
def newlineCell : Cell := ⟨'\n', .plain⟩

/-- The cells of the lines of a text. -/
def lineCells (lineNumbers : Bool) (theme : Theme) (lines : List (List Run)) : List Cell :=
  [newlineCell].intercalate <| lines.mapIdx fun i rs =>
    gutterCells lineNumbers (gutterWidth lines.length) (i + 1) ++ rs.flatMap (runCells theme)

/-! ## What a terminal writes -/

/-- Texts written one after the other, read with the first look, show the cells and leave the
second look. -/
def ShowsAll (texts : List String) (l : Look) (shown : List Cell) (l' : Look) : Prop :=
  Shows (texts.flatMap String.toList) l shown l'

section Writes

variable {l l' l'' : Look} {x y : List Cell} {theme : Theme} {lineNumbers : Bool}

theorem ShowsAll.append {ts us : List String} (first : ShowsAll ts l x l')
    (then' : ShowsAll us l' y l'') : ShowsAll (ts ++ us) l (x ++ y) l'' := by
  unfold ShowsAll
  rw [List.flatMap_append]
  exact Shows.append first then'

theorem showsAll_singleton {text : String} (h : Shows text.toList l x l') :
    ShowsAll [text] l x l' := by
  unfold ShowsAll
  rwa [List.flatMap_singleton]

theorem showsAll_text {text : String} (free : '\x1b' ∉ text.toList) (l : Look) :
    ShowsAll [text] l (cellsOf l text) l :=
  showsAll_singleton (shows_text free l)

theorem showsAll_sequence (p : Nat) (ps : List Nat) {text : String}
    (written : text.toList = parameters (p :: ps)) (known : l.after? (p :: ps) = some l') :
    ShowsAll [sequence text] l [] l' :=
  showsAll_singleton (shows_sequence written known)

theorem showsAll_foreground (c : Color) (l : Look) :
    ShowsAll [foreground c] l [] { l with foreground := some c } := by
  obtain ⟨r, g, b⟩ := c
  refine showsAll_sequence 38 [2, r.toNat, g.toNat, b.toNat] ?_ ?_
  · have digits : ∀ n : Nat, (toString n).toList = Nat.toDigits 10 n := fun n => by
      rw [Nat.toString_eq_ofList_toDigits, String.toList_ofList]
    have known : Nat.toDigits 10 38 = ['3', '8'] ∧ Nat.toDigits 10 2 = ['2'] := by decide
    simp only [String.toList_append, digits, parameters, List.map_cons, List.map_nil,
      List.intercalate_cons_cons, List.intercalate_singleton, known]
    simp
  · have bounds := And.intro r.toNat_lt (And.intro g.toNat_lt b.toNat_lt)
    simp [Look.after?, bounds]

/-- From the plain look a style sets just the look it asks for. -/
theorem showsAll_apply (s : Style) : ShowsAll (apply s) .plain [] (.ofStyle s) := by
  obtain ⟨color, bold, italic⟩ := s
  have first : ShowsAll (color.map foreground).toList .plain [] ⟨color, false, false, false⟩ := by
    cases color with
    | none => exact .nil _
    | some c => exact showsAll_foreground c .plain
  have second : ShowsAll (if bold then [sequence "1"] else []) ⟨color, false, false, false⟩ []
      ⟨color, bold, false, false⟩ := by
    cases bold with
    | false => exact .nil _
    | true => exact showsAll_sequence 1 [] (by decide) rfl
  have third : ShowsAll (if italic then [sequence "3"] else []) ⟨color, bold, false, false⟩ []
      ⟨color, bold, false, italic⟩ := by
    cases italic with
    | false => exact .nil _
    | true => exact showsAll_sequence 3 [] (by decide) rfl
  exact (first.append second).append third

theorem showsAll_dim : ShowsAll dim .plain [] .faint :=
  showsAll_sequence 2 [] (by decide) rfl

theorem showsAll_reset (l : Look) : ShowsAll reset l [] .plain := by
  have zero : ∀ l, ShowsAll [sequence "0"] l [] .plain := fun l =>
    showsAll_sequence 0 [] (by decide) rfl
  exact (zero l).append (zero .plain)

/-- A run shows its text in its style, and the look is plain again behind it. -/
theorem showsAll_run {r : Run} (free : '\x1b' ∉ r.text.toList) :
    ShowsAll (runWrites ⟨true, lineNumbers⟩ theme r) .plain (runCells theme r) .plain := by
  obtain ⟨text, kind⟩ := r
  cases kind with
  | none => exact showsAll_text free .plain
  | some kind =>
    have style : Run.style? theme ⟨text, some kind⟩ = some (theme.style kind) := rfl
    simp only [runWrites, runCells, style, kindLook]
    by_cases isPlain : theme.style kind = .plain
    · rw [isPlain]
      exact showsAll_text free .plain
    · have styled : (true && !(theme.style kind).isPlain) = true := by
        simp [Style.isPlain, isPlain]
      rw [if_pos styled]
      have shown := ((showsAll_apply _).append (showsAll_text free (.ofStyle (theme.style kind)))).append
        (showsAll_reset (.ofStyle (theme.style kind)))
      rwa [List.nil_append, List.append_nil] at shown

theorem showsAll_runs {rs : List Run} (free : ∀ r ∈ rs, '\x1b' ∉ r.text.toList) :
    ShowsAll (runsWrites ⟨true, lineNumbers⟩ theme rs) .plain (rs.flatMap (runCells theme))
      .plain := by
  induction rs with
  | nil => exact .nil _
  | cons r rs ih =>
    obtain ⟨free, later⟩ := List.forall_mem_cons.1 free
    exact (showsAll_run free).append (ih later)

/-- A line number is blanks and digits. -/
theorem blank_or_digit_of_mem_label {width number : Nat} {c : Char}
    (h : c ∈ (label width number).toList) : c = ' ' ∨ c.isDigit = true := by
  simp only [label, String.toList_ofList, List.mem_append, List.mem_replicate,
    List.mem_singleton] at h
  obtain (⟨-, blank⟩ | digit) | blank := h
  · exact .inl blank
  · exact .inr (Nat.isDigit_of_mem_toDigits (by decide) (by decide) digit)
  · exact .inl blank

theorem escape_notMem_label (width number : Nat) : '\x1b' ∉ (label width number).toList :=
  fun mem => absurd (blank_or_digit_of_mem_label mem) (by decide)

theorem showsAll_gutter (width number : Nat) :
    ShowsAll (gutterWrites ⟨true, lineNumbers⟩ width number) .plain
      (gutterCells lineNumbers width number) .plain := by
  have free := escape_notMem_label width number
  cases lineNumbers with
  | false => exact .nil _
  | true =>
    have shown := (showsAll_dim.append (showsAll_text free .faint)).append (showsAll_reset .faint)
    rwa [List.nil_append, List.append_nil] at shown

/-- Lines with newlines between them show their cells with newline cells between them. -/
theorem showsAll_intercalate {ts : List (List String)} {xs : List (List Cell)}
    (h : List.Forall₂ (fun t x => ShowsAll t .plain x .plain) ts xs) :
    ShowsAll (["\n"].intercalate ts) .plain ([newlineCell].intercalate xs) .plain := by
  induction h with
  | nil => exact .nil _
  | @cons t x ts xs here later ih =>
    cases later with
    | nil => simpa using here
    | cons =>
      rw [List.intercalate_cons_cons, List.intercalate_cons_cons]
      have newline : ShowsAll ["\n"] .plain [newlineCell] .plain :=
        showsAll_text (by decide) .plain
      exact (here.append newline).append ih

theorem forall₂_mapIdx {α β γ : Type} {R : β → γ → Prop} {f : Nat → α → β} {g : Nat → α → γ}
    {as : List α} (h : ∀ i, ∀ a ∈ as, R (f i a) (g i a)) :
    List.Forall₂ R (as.mapIdx f) (as.mapIdx g) := by
  induction as generalizing f g with
  | nil => exact .nil
  | cons a as ih =>
    rw [List.mapIdx_cons, List.mapIdx_cons]
    exact .cons (h 0 a List.mem_cons_self)
      (ih fun i b hb => h (i + 1) b (List.mem_cons_of_mem a hb))

theorem showsAll_lines {lines : List (List Run)}
    (free : ∀ rs ∈ lines, ∀ r ∈ rs, '\x1b' ∉ r.text.toList) :
    ShowsAll (linesWrites ⟨true, lineNumbers⟩ theme lines) .plain
      (lineCells lineNumbers theme lines) .plain :=
  showsAll_intercalate <| forall₂_mapIdx fun _ rs hrs =>
    (showsAll_gutter _ _).append (showsAll_runs (free rs hrs))

end Writes

/-! ## From the bytes -/

theorem decode?_utf8 (s : String) : decode? (utf8 s) = some s := by
  have bytes : (utf8 s).toByteArray = s.toByteArray := by
    refine ByteArray.ext ?_
    rw [List.data_toByteArray]
    rfl
  rw [decode?, bytes, String.fromUTF8?, dif_pos s.isValidUTF8]
  rfl

theorem utf8_append (s t : String) : utf8 (s ++ t) = utf8 s ++ utf8 t := by
  simp [utf8]

theorem flatMap_utf8 (texts : List String) : texts.flatMap utf8 = utf8 (String.join texts) := by
  induction texts with
  | nil => rfl
  | cons t texts ih => rw [List.flatMap_cons, ih, String.join_cons, utf8_append]

theorem display?_writes {texts : List String} {shown : List Cell} {l : Look}
    (h : ShowsAll texts .plain shown l) :
    Screen.display? (texts.flatMap utf8) = some ⟨shown, l, .text⟩ := by
  rw [Screen.display?, flatMap_utf8, decode?_utf8, Option.bind_some, String.toList_join]
  exact h []

/-- **A screen shows the lines of a text** in the styles of the theme, with the line numbers
faint, and is left as it was before. -/
theorem display_lines (lineNumbers : Bool) (theme : Theme) (lines : List (List Run))
    (free : ∀ rs ∈ lines, ∀ r ∈ rs, '\x1b' ∉ r.text.toList) :
    Screen.display? (written (session ⟨true, lineNumbers⟩ theme ⟨none⟩ [.lines lines])) =
      some ⟨lineCells lineNumbers theme lines, .plain, .text⟩ := by
  have output : written (session ⟨true, lineNumbers⟩ theme ⟨none⟩ [.lines lines]) =
      (linesWrites ⟨true, lineNumbers⟩ theme lines).flatMap utf8 := by
    rw [session_unlimited_cons]
    simp [written, session, Operation.output, Operation.writes]
  rw [output]
  exact display?_writes (showsAll_lines free)

/-- A keyword with plain text behind it, a line without runs, and a comment with a number behind it
and a run of no text. -/
def sampleLines : List (List Run) :=
  [[⟨"fun", some .keyword⟩, ⟨" é", none⟩], [],
    [⟨"// x", some .comment⟩, ⟨"7", some .number⟩, ⟨"", some .string⟩]]

/-- Bold blue keywords, comments in italics and numbers that look like plain text. -/
def sampleTheme : Theme :=
  { Theme.standard with
    keyword := ⟨some ⟨86, 156, 214⟩, true, false⟩
    comment := ⟨none, false, true⟩
    number := .plain }

theorem display_sampleLines :
    let faint : Look := ⟨none, false, true, false⟩
    let plain : Look := ⟨none, false, false, false⟩
    let keyword : Look := ⟨some ⟨86, 156, 214⟩, true, false, false⟩
    let comment : Look := ⟨none, false, false, true⟩
    (∀ rs ∈ sampleLines, ∀ r ∈ rs, '\x1b' ∉ r.text.toList) ∧
      Screen.display? (written (session ⟨true, true⟩ sampleTheme ⟨none⟩ [.lines sampleLines])) =
        some ⟨[⟨' ', faint⟩, ⟨' ', faint⟩, ⟨'1', faint⟩, ⟨' ', faint⟩,
            ⟨'f', keyword⟩, ⟨'u', keyword⟩, ⟨'n', keyword⟩, ⟨' ', plain⟩, ⟨'é', plain⟩,
            ⟨'\n', plain⟩,
            ⟨' ', faint⟩, ⟨' ', faint⟩, ⟨'2', faint⟩, ⟨' ', faint⟩, ⟨'\n', plain⟩,
            ⟨' ', faint⟩, ⟨' ', faint⟩, ⟨'3', faint⟩, ⟨' ', faint⟩,
            ⟨'/', comment⟩, ⟨'/', comment⟩, ⟨' ', comment⟩, ⟨'x', comment⟩, ⟨'7', plain⟩],
          plain, .text⟩ := by
  intro faint plain keyword comment
  have free : ∀ rs ∈ sampleLines, ∀ r ∈ rs, '\x1b' ∉ r.text.toList := by decide
  exact ⟨free, (display_lines true sampleTheme sampleLines free).trans (by decide)⟩

end LineTint.Terminal
