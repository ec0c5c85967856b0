import LineTint.Proofs.Verbatim
import LineTint.Tool.Folder

/-!
# A broken settings file

Settings that cannot be read are the default settings, however many good ones stand before the
wrong one. So the tool does the same with a broken settings file as without one, unless the path of
the input leads to that very file or through it (`Tool.run_brokenSettings_iff`). What a path finds
in a folder with one more file is `Folder.walk_insert`: off the way to the new file nothing has
changed, and on it something has. A folder is all there is here: an absolute path and one that goes
up from the folder find nothing in it, also where such a path would lead back to the settings file.
-/

namespace LineTint.Tool
set_option autoImplicit false
open Text

namespace Folder
open FileName

/-! ## One step of a path -/

/-- What a component of a path asks for. -/
inductive Turn where
  /-- To stay in the directory. -/
  | stay
  /-- To go to the directory that this one is in. -/
  | up
  /-- Nothing, since no name is that long. -/
  | tooLong
  /-- To go to the entry of that name. -/
  | into
  deriving DecidableEq, Repr

/-- The turn at a component. -/
def turn (piece : List UInt8) : Turn :=
  if piece = [] ∨ piece = [dot] then .stay
  else if piece = [dot, dot] then .up
  else if maxNameLength < piece.length then .tooLong
  else .into

theorem walk_cons (f : Folder) (directory : List (List UInt8)) (piece : List UInt8)
    (pieces : List (List UInt8)) :
    f.walk directory (piece :: pieces) =
      match turn piece with
      | .stay => f.walk directory pieces
      | .up => if directory.isEmpty then .error .notFound else f.walk directory.dropLast pieces
      | .tooLong => .error .nameTooLong
      | .into =>
        match f.files.lookup (directory ++ [piece]) with
        | some bytes => if pieces.isEmpty then .ok bytes else .error .notDirectory
        | none =>
          if f.isDirectory (directory ++ [piece]) then f.walk (directory ++ [piece]) pieces
          else .error .notFound := by
  rw [walk, turn]
  split
  · rfl
  · split
    · rfl
    · split <;> rfl

/-- The way from a directory along the components of a path comes to the place, as its end or
before it. -/
def leadsTo (f : Folder) (place directory : List (List UInt8)) : List (List UInt8) → Bool
  | [] => false
  | piece :: pieces =>
    match turn piece with
    | .stay => leadsTo f place directory pieces
    | .up => !directory.isEmpty && leadsTo f place directory.dropLast pieces
    | .tooLong => false
    | .into =>
      directory ++ [piece] = place ||
        (f.files.lookup (directory ++ [piece])).isNone && f.isDirectory (directory ++ [piece]) &&
          leadsTo f place (directory ++ [piece]) pieces

/-- The path of a file leads to the place or through it, in the folder: an absolute path does not,
and neither does one that goes up from the folder, whatever is around the folder. -/
def reaches (f : Folder) (place : List (List UInt8)) (path : List UInt8) : Bool :=
  decide (path.length ≤ maxPathLength) && decide (path.head? ≠ some slash) &&
    f.leadsTo place [] (components path)

/-! ## One more file -/

/-- The folder with one more file. -/
def insert (f : Folder) (place : List (List UInt8)) (bytes : List UInt8) : Folder :=
  ⟨(place, bytes) :: f.files⟩

/-- Nothing is at the place, and the directory that it is in is there. -/
structure Vacant (f : Folder) (place : List (List UInt8)) : Prop where
  noFile : f.files.lookup place = none
  noDirectory : f.isDirectory place = false
  inside : f.isDirectory place.dropLast = true

section Insert

variable {f : Folder} {place : List (List UInt8)} {bytes : List UInt8}

theorem lookup_insert (f : Folder) (place path : List (List UInt8)) (bytes : List UInt8) :
    (f.insert place bytes).files.lookup path =
      if path = place then some bytes else f.files.lookup path := by
  rw [insert, List.lookup_cons]
  by_cases h : path = place
  · rw [if_pos h, beq_iff_eq.2 h]
  · rw [if_neg h, beq_eq_false_iff_ne.2 h]

theorem isDirectory_iff {path : List (List UInt8)} : f.isDirectory path = true ↔
    path = [] ∨ ∃ entry ∈ f.files, path <+: entry.1 ∧ path.length < entry.1.length := by
  simp only [isDirectory, Bool.or_eq_true, List.isEmpty_iff, List.any_eq_true, Bool.and_eq_true,
    List.isPrefixOf_iff_prefix, decide_eq_true_eq]

/-- A new file makes no directory. -/
theorem isDirectory_insert (vacant : f.Vacant place) (path : List (List UInt8)) :
    (f.insert place bytes).isDirectory path = f.isDirectory path := by
  rw [Bool.eq_iff_iff, isDirectory_iff, isDirectory_iff]
  constructor
  · rintro (rfl | ⟨entry, hentry, front, shorter⟩)
    · exact .inl rfl
    rcases List.mem_cons.1 hentry with rfl | known
    · -- A directory around the new file is one already.
      have shorter : path.length < place.length := shorter
      have around : path <+: place.dropLast := by
        rw [List.dropLast_eq_take]
        exact List.prefix_take_iff.2 ⟨front, by omega⟩
      rcases isDirectory_iff.1 vacant.inside with top | ⟨entry, known, inner, below⟩
      · exact .inl (List.prefix_nil.1 (top ▸ around))
      · have := around.length_le
        exact .inr ⟨entry, known, around.trans inner, by omega⟩
    · exact .inr ⟨entry, known, front, shorter⟩
  · rintro (rfl | ⟨entry, known, front, shorter⟩)
    · exact .inl rfl
    · exact .inr ⟨entry, List.mem_cons_of_mem _ known, front, shorter⟩

/-- What is found with one more file and without it: the same off the way to the file; on the way
nothing without it, and with it the file or that it is no directory. -/
def Differs (bytes : List UInt8) (onTheWay : Bool)
    (present absent : Except IoFault (List UInt8)) : Prop :=
  if onTheWay then
    absent = .error .notFound ∧ (present = .ok bytes ∨ present = .error .notDirectory)
  else present = absent

/-- **One more file** is noticed only on the way to it. The induction is on the path. -/
theorem walk_insert (vacant : f.Vacant place) (directory pieces : List (List UInt8)) :
    Differs bytes (f.leadsTo place directory pieces)
      ((f.insert place bytes).walk directory pieces) (f.walk directory pieces) := by
  induction pieces generalizing directory with
  | nil => rfl
  | cons piece pieces ih =>
    rw [walk_cons, walk_cons, leadsTo]
    cases turn piece with
    | stay => exact ih directory
    | up =>
      cases directory.isEmpty with
      | true => rfl
      | false => exact ih directory.dropLast
    | tooLong => rfl
    | into =>
      simp only [lookup_insert, isDirectory_insert vacant]
      by_cases here : directory ++ [piece] = place
      · -- Without the file there is nothing at its place.
        simp only [here, vacant.noFile, vacant.noDirectory, if_true, decide_true, Bool.true_or]
        cases pieces.isEmpty with
        | true => exact ⟨rfl, .inl rfl⟩
        | false => exact ⟨rfl, .inr rfl⟩
      · simp only [here, if_false, decide_false, Bool.false_or]
        cases f.files.lookup (directory ++ [piece]) with
        | some known => rfl
        | none =>
          cases f.isDirectory (directory ++ [piece]) with
          | false => rfl
          | true => exact ih (directory ++ [piece])

theorem read_insert (vacant : f.Vacant place) (path : List UInt8) :
    Differs bytes (f.reaches place path) ((f.insert place bytes).read path) (f.read path) := by
  rw [read, read, reaches]
  by_cases long : maxPathLength < path.length
  · rw [if_pos long, if_pos long, decide_eq_false (by omega)]
    rfl
  · rw [if_neg long, if_neg long, decide_eq_true (by omega), Bool.true_and]
    by_cases root : path.head? = some slash
    · rw [if_pos root, if_pos root, decide_eq_false (not_not_intro root)]
      rfl
    · rw [if_neg root, if_neg root, decide_eq_true root, Bool.true_and]
      exact walk_insert vacant [] (components path)

end Insert

end Folder

/-! ## Two runs -/

/-- What a run finds around it in a folder with the settings file at a place. -/
def Surroundings.ofFolder (f : Folder) (place : List (List UInt8)) (input : List UInt8) :
    Surroundings :=
  ⟨f.files.lookup place, f.read, input⟩

/-- The settings in a file that is no UTF-8, no TOML or sets anything wrong are the defaults. -/
theorem load_of_error {bytes : Option (List UInt8)} {fault : Fault}
    (broken : Settings.ofFile bytes = .error fault) : Settings.load bytes = .standard := by
  rw [Settings.load, broken]

section Runs

variable {f : Folder} {place : List (List UInt8)} {bytes : List UInt8} {fault : Fault}
  {arguments : List (List UInt8)} {input : List UInt8} {i : Invocation}

/-- Runs finish differently where one finds nothing and the other a file or that there is no
directory. -/
theorem finish_ne {s : Settings} {present absent : Except IoFault (List UInt8)}
    (differs : Folder.Differs bytes true present absent) : finish i s present ≠ finish i s absent := by
  obtain ⟨rfl, rfl | rfl⟩ := differs
  · cases decoded : decode? bytes with
    | none =>
      simp only [finish, decoded]
      decide
    | some text =>
      intro same
      have := congrArg Outcome.exitCode same
      simp [finish, decoded, Outcome.done, Outcome.failed] at this
  · simp only [finish]
    decide

/-- Whether two runs of an invocation with the settings file and without it end the same. -/
theorem finish_insert_iff (vacant : f.Vacant place) (s : Settings) :
    finish i s (i.input (.ofFolder (f.insert place bytes) place input)) =
        finish i s (i.input (.ofFolder f place input)) ↔
      ∀ path, i.file = some path → f.reaches place path = false := by
  unfold Invocation.input
  cases i.file with
  | none => simp [Surroundings.ofFolder]
  | some path =>
    have differs : Folder.Differs bytes (f.reaches place path) ((f.insert place bytes).read path)
        (f.read path) := Folder.read_insert vacant path
    simp only [Surroundings.ofFolder, Option.some.injEq, forall_eq']
    cases known : f.reaches place path with
    | false =>
      rw [known] at differs
      exact iff_of_true (congrArg (finish i s) differs) rfl
    | true =>
      rw [known] at differs
      exact iff_of_false (finish_ne differs) (by simp)

/-- With a broken settings file the tool does what it does without one, as long as it finds the same
input. -/
theorem run_of_error (broken : Settings.ofFile (some bytes) = .error fault)
    (arguments : List (List UInt8)) (around : Surroundings) :
    runBytes arguments { around with settings := some bytes } =
      runBytes arguments { around with settings := none } := by
  have same : Settings.load (some bytes) = Settings.load none := load_of_error broken
  have reads : ∀ i : Invocation, i.input { around with settings := some bytes } =
      i.input { around with settings := none } := fun _ => rfl
  simp only [runBytes, same, reads]

/-- The tool is asked to show the file at a path. -/
def AsksFor (arguments : List (List UInt8)) (path : List UInt8) : Prop :=
  ∃ i, Arguments.read arguments = .ok (.run i) ∧ i.listLanguages = false ∧ i.file = some path

/-- **A broken settings file** leaves the default settings, so the tool does the same with it as
without it wherever it finds the same input. In a folder with the settings file in it that is so
exactly if no path to that file or through it, within the folder, is what the tool is asked to
show. -/
theorem run_brokenSettings_iff (vacant : f.Vacant place)
    (broken : ∃ fault, Settings.ofFile (some bytes) = .error fault)
    (arguments : List (List UInt8)) (input : List UInt8) :
    Settings.load (some bytes) = .standard ∧
      (∀ around : Surroundings, runBytes arguments { around with settings := some bytes } =
        runBytes arguments { around with settings := none }) ∧
      (runBytes arguments (.ofFolder (f.insert place bytes) place input) =
          runBytes arguments (.ofFolder f place input) ↔
        ∀ path, AsksFor arguments path → f.reaches place path = false) := by
  obtain ⟨fault, broken⟩ := broken
  refine ⟨load_of_error broken, run_of_error broken arguments, ?_⟩
  have present : Settings.load (Surroundings.ofFolder (f.insert place bytes) place input).settings =
      .standard := by
    rw [Surroundings.ofFolder, Folder.lookup_insert, if_pos rfl]
    exact load_of_error broken
  have absent : Settings.load (Surroundings.ofFolder f place input).settings = .standard := by
    rw [Surroundings.ofFolder, vacant.noFile]
    rfl
  unfold runBytes AsksFor
  rw [present, absent]
  cases Arguments.read arguments with
  | error fault => simp
  | ok request =>
    cases request with
    | help => simp
    | version => simp
    | run i =>
      cases listed : i.listLanguages with
      | true => simp [listed]
      | false => simp [listed, finish_insert_iff vacant]

end Runs

theorem exists_error_of_isOk {r : Except Fault Settings} (h : r.isOk = false) :
    ∃ fault, r = .error fault := by
  cases r with
  | ok s => exact absurd h (by simp [Except.isOk, Except.toBool])
  | error fault => exact ⟨fault, rfl⟩

/-- A wrong setting behind a good one. -/
def brokenSettings : List UInt8 :=
  utf8 "[editor]\nline-numbers = true\ncolor = 7\n"

theorem ofFile_brokenSettings : ∃ fault, Settings.ofFile (some brokenSettings) = .error fault :=
  exists_error_of_isOk (by decide +kernel)

/-- The place of the settings file in the home directory. -/
def settingsPlace : List (List UInt8) := [utf8 Settings.fileName]

/-- A home directory with one text. -/
def sampleFolder : Folder := .ofList [("main.kt", utf8 "val x = 1\n")]

theorem vacant_settingsPlace : sampleFolder.Vacant settingsPlace :=
  ⟨by decide, by decide, by decide⟩

theorem run_brokenSettings_sampleFolder :
    sampleFolder.Vacant settingsPlace ∧
      (∃ fault, Settings.ofFile (some brokenSettings) = .error fault) ∧
      run ["main.kt"] (.ofFolder (sampleFolder.insert settingsPlace brokenSettings) settingsPlace []) =
        run ["main.kt"] (.ofFolder sampleFolder settingsPlace []) := by
  refine ⟨vacant_settingsPlace, ofFile_brokenSettings, ?_⟩
  refine (run_brokenSettings_iff vacant_settingsPlace ofFile_brokenSettings _ _).2.2.2 ?_
  rintro path ⟨i, accepted, -, file⟩
  have known : Arguments.read [utf8 "main.kt"] =
      .ok (.run ⟨some (utf8 "main.kt"), none, false, false, false⟩) := by rfl
  obtain rfl := Request.run.inj (Except.ok.inj (known.symm.trans accepted))
  obtain rfl := Option.some.inj file
  decide

/-- A path through the broken settings file finds no directory there, and nothing without it. -/
theorem run_through_brokenSettings_ne :
    let present := Surroundings.ofFolder (sampleFolder.insert settingsPlace brokenSettings)
      settingsPlace []
    let absent := Surroundings.ofFolder sampleFolder settingsPlace []
    (∃ fault, Settings.ofFile present.settings = .error fault) ∧ absent.settings = none ∧
      present.readFile (utf8 ".codepad.toml/x") = .error .notDirectory ∧
      run [".codepad.toml/x"] present =
        ⟨1, "", some "Error: I/O error: Not a directory (os error 20)"⟩ ∧
      run [".codepad.toml/x"] absent =
        ⟨1, "", some "Error: I/O error: No such file or directory (os error 2)"⟩ ∧
      run [".codepad.toml/x"] present ≠ run [".codepad.toml/x"] absent := by
  intro present absent
  have notDirectory : run [".codepad.toml/x"] present =
      ⟨1, "", some "Error: I/O error: Not a directory (os error 20)"⟩ := by decide +kernel
  have notFound : run [".codepad.toml/x"] absent =
      ⟨1, "", some "Error: I/O error: No such file or directory (os error 2)"⟩ := by decide +kernel
  refine ⟨ofFile_brokenSettings, by decide, by rfl, notDirectory, notFound, ?_⟩
  rw [notDirectory, notFound]
  decide

end LineTint.Tool
