import LineTint.Fault
import LineTint.Text.Bytes

/-!
# Sinks

A sink takes the bytes that are written to it, all of them or up to a limit.
The write that goes beyond the limit is taken up to it and fails, and what was
to be written after it is not written. An empty write never fails.
`Sink.bytes_write` says that the cut falls where the room ends, however the
bytes are parted into texts.
-/

namespace LineTint.Terminal
set_option autoImplicit false

/-- How many more bytes are taken; without a limit, all. -/
structure Sink where
  room : Option Nat
  deriving DecidableEq, Repr

/-- What became of something written: the bytes that were taken, and the fault
if not all were. -/
structure Delivery where
  bytes : List UInt8
  fault : Option Fault
  deriving DecidableEq, Repr

/-- The sink after bytes were offered to it. -/
def Sink.after (s : Sink) (bytes : List UInt8) : Sink :=
  ⟨s.room.map (· - bytes.length)⟩

/-- The part of the bytes that the sink takes. -/
def Sink.taken (s : Sink) (bytes : List UInt8) : List UInt8 :=
  match s.room with
  | none => bytes
  | some n => bytes.take n

/-- The sink has room for all the bytes. -/
def Sink.fits (s : Sink) (bytes : List UInt8) : Bool :=
  s.room.all (bytes.length ≤ ·)

/-- Writes texts one after the other, up to the first that fails. -/
def Sink.write (s : Sink) : List String → Delivery × Sink
  | [] => (⟨[], none⟩, s)
  | text :: texts =>
    let bytes := Text.utf8 text
    if s.fits bytes then
      let (d, s) := (s.after bytes).write texts
      (⟨bytes ++ d.bytes, d.fault⟩, s)
    else (⟨s.taken bytes, some (.io .sinkFull)⟩, s.after bytes)

theorem Sink.bytes_write (s : Sink) (texts : List String) :
    (s.write texts).1.bytes = s.taken (texts.flatMap Text.utf8) := by
  induction texts generalizing s with
  | nil => cases h : s.room <;> simp [write, taken, h]
  | cons text texts ih =>
    cases h : s.room with
    | none => simp [write, fits, h, ih, taken, after]
    | some n =>
      by_cases hn : (Text.utf8 text).length ≤ n
      · simp [write, fits, h, hn, ih, taken, after, List.take_append, List.take_of_length_le hn]
      · simp [write, fits, h, hn, taken, List.take_append,
          Nat.sub_eq_zero_of_le (Nat.le_of_not_le hn)]

end LineTint.Terminal
