import LineTint.Terminal.Session

/-!
# Output up to a limit

A sink with a limit cuts what is written to it at a byte, wherever that byte lies: in a text, in a
control sequence or inside a character. `Sink.write_eq` says that writing texts one after the
other is offering all their bytes at once. So a session on a limited sink delivers what the same
session delivers without a limit, operation by operation and cut where the room ends
(`session_limited`), and `session_cut` adds this up: what is written in all is the front of the
output, and exactly the operations with output beyond the limit fail.
-/

namespace LineTint.Terminal
set_option autoImplicit false
open Text

/-! ## One operation -/

section Sink

variable {s : Sink} {a b : List UInt8}

theorem Sink.after_append (s : Sink) (a b : List UInt8) :
    s.after (a ++ b) = (s.after a).after b := by
  cases room : s.room with
  | none => simp [Sink.after, room]
  | some n => simp [Sink.after, room, Nat.sub_sub]

theorem Sink.fits_append (front : s.fits a = true) : s.fits (a ++ b) = (s.after a).fits b := by
  cases room : s.room with
  | none => simp [Sink.fits, Sink.after, room]
  | some n =>
    have le : a.length ≤ n := by simpa [Sink.fits, room] using front
    have total : a.length + b.length ≤ n ↔ b.length ≤ n - a.length := by omega
    simp [Sink.fits, Sink.after, room, total]

/-- A front that does not fit fills the sink. -/
theorem Sink.append_of_not_fits (front : s.fits a = false) (b : List UInt8) :
    s.fits (a ++ b) = false ∧ s.after (a ++ b) = s.after a := by
  cases room : s.room with
  | none => exact absurd front (by simp [Sink.fits, room])
  | some n =>
    have lt : n < a.length := by simpa [Sink.fits, room] using front
    constructor
    · have total : n < a.length + b.length := by omega
      simpa [Sink.fits, room] using total
    · have full : n - (a.length + b.length) = n - a.length := by omega
      simp [Sink.after, room, full]

/-- What becomes of bytes that are offered to a sink at once. -/
def Sink.offer (s : Sink) (bytes : List UInt8) : Delivery :=
  ⟨s.taken bytes, if s.fits bytes then none else some (.io .sinkFull)⟩

theorem Sink.fault_write (s : Sink) (texts : List String) :
    (s.write texts).1.fault = (s.offer (texts.flatMap utf8)).fault ∧
      (s.write texts).2 = s.after (texts.flatMap utf8) := by
  induction texts generalizing s with
  | nil =>
    obtain ⟨room⟩ := s
    cases room <;> simp [Sink.write, Sink.offer, Sink.fits, Sink.after]
  | cons text texts ih =>
    rw [List.flatMap_cons]
    cases fits : s.fits (utf8 text) with
    | true =>
      obtain ⟨fault, left⟩ := ih (s.after (utf8 text))
      simp only [Sink.write, fits, if_true, fault, left, Sink.offer, Sink.fits_append fits,
        Sink.after_append, and_self]
    | false =>
      obtain ⟨cut, full⟩ := Sink.append_of_not_fits fits (texts.flatMap utf8)
      simp [Sink.write, fits, Sink.offer, cut, full]

/-- **Writing texts** one after the other is offering their bytes at once. -/
theorem Sink.write_eq (s : Sink) (texts : List String) :
    s.write texts = (s.offer (texts.flatMap utf8), s.after (texts.flatMap utf8)) := by
  obtain ⟨fault, left⟩ := s.fault_write texts
  calc s.write texts
      = (⟨(s.write texts).1.bytes, (s.write texts).1.fault⟩, (s.write texts).2) := rfl
    _ = (s.offer (texts.flatMap utf8), s.after (texts.flatMap utf8)) := by
      rw [s.bytes_write, fault, left]
      rfl

end Sink

/-! ## Sessions -/

/-- The bytes of an operation. -/
def Operation.output (t : Terminal) (theme : Theme) (op : Operation) : List UInt8 :=
  (op.writes t theme).flatMap utf8

/-- The bytes that deliveries have written in all. -/
def written (ds : List Delivery) : List UInt8 :=
  ds.flatMap (·.bytes)

section Session

variable (t : Terminal) (theme : Theme)

theorem session_cons (s : Sink) (op : Operation) (ops : List Operation) :
    session t theme s (op :: ops) = s.offer (op.output t theme) ::
      session t (op.nextTheme theme) (s.after (op.output t theme)) ops := by
  simp only [session, Sink.write_eq]
  rfl

/-- Without a limit an operation delivers its output. -/
theorem session_unlimited_cons (op : Operation) (ops : List Operation) :
    session t theme ⟨none⟩ (op :: ops) = ⟨op.output t theme, none⟩ ::
      session t (op.nextTheme theme) ⟨none⟩ ops :=
  session_cons t theme ⟨none⟩ op ops

theorem fault_of_mem_unlimited {d : Delivery} {ops : List Operation}
    (h : d ∈ session t theme ⟨none⟩ ops) : d.fault = none := by
  induction ops generalizing theme with
  | nil => exact absurd h (by simp [session])
  | cons op ops ih =>
    rw [session_unlimited_cons] at h
    rcases List.mem_cons.1 h with rfl | h
    · rfl
    · exact ih _ h

/-- What a limit leaves of a delivery that has `before` bytes of output before it: the bytes up to
the limit, and a fault if there are any and they go beyond it. -/
def Delivery.limited (limit before : Nat) (d : Delivery) : Delivery :=
  ⟨d.bytes.take (limit - before),
    if d.bytes ≠ [] ∧ limit < before + d.bytes.length then some (.io .sinkFull) else none⟩

theorem offer_limited (limit : Nat) (bytes : List UInt8) :
    (⟨some limit⟩ : Sink).offer bytes = Delivery.limited limit 0 ⟨bytes, none⟩ := by
  have fits : (⟨some limit⟩ : Sink).fits bytes = true ↔
      ¬(bytes ≠ [] ∧ limit < 0 + bytes.length) := by
    rw [← List.length_pos_iff, Nat.zero_add]
    show decide (bytes.length ≤ limit) = true ↔ _
    rw [decide_eq_true_eq]
    omega
  by_cases beyond : bytes ≠ [] ∧ limit < 0 + bytes.length
  · have cut : (⟨some limit⟩ : Sink).fits bytes = false :=
      Bool.eq_false_iff.2 (mt fits.1 (not_not_intro beyond))
    simp only [Sink.offer, Delivery.limited, Sink.taken, cut, beyond, Bool.false_eq_true, if_false,
      Nat.sub_zero, ne_eq, not_false_eq_true, and_self, if_true]
  · simp only [Sink.offer, Delivery.limited, Sink.taken, fits.2 beyond, beyond, if_true, if_false,
      Nat.sub_zero]

/-- With a limit an operation delivers its output up to there and uses up as much of the limit. -/
theorem session_limited_cons (limit : Nat) (op : Operation) (ops : List Operation) :
    session t theme ⟨some limit⟩ (op :: ops) =
      Delivery.limited limit 0 ⟨op.output t theme, none⟩ ::
        session t (op.nextTheme theme) ⟨some (limit - (op.output t theme).length)⟩ ops := by
  rw [session_cons, offer_limited]
  rfl

/-- What is cut off counts all the output before it. -/
theorem Delivery.limited_sub (limit used before : Nat) :
    Delivery.limited (limit - used) before = Delivery.limited limit (used + before) := by
  funext d
  have room : limit - used - before = limit - (used + before) := by omega
  have beyond : d.bytes ≠ [] ∧ limit - used < before + d.bytes.length ↔
      d.bytes ≠ [] ∧ limit < used + before + d.bytes.length := by
    rw [← List.length_pos_iff]
    omega
  simp only [Delivery.limited, room, beyond]

/-- **A session on a limited sink** delivers what it delivers without a limit, cut where the room
ends. The induction is on the operations; an operation uses up its part of the limit even when it
is cut itself. -/
theorem session_limited (limit : Nat) (ops : List Operation) (i : Nat) :
    (session t theme ⟨some limit⟩ ops)[i]? = (session t theme ⟨none⟩ ops)[i]?.map
      (Delivery.limited limit (written ((session t theme ⟨none⟩ ops).take i)).length) := by
  induction ops generalizing theme limit i with
  | nil => rfl
  | cons op ops ih =>
    rw [session_unlimited_cons, session_limited_cons]
    cases i with
    | zero => rfl
    | succ i =>
      simp only [List.getElem?_cons_succ, List.take_succ_cons, written, List.flatMap_cons,
        List.length_append, ← Delivery.limited_sub]
      exact ih _ _ i

theorem written_limited (limit : Nat) (ops : List Operation) :
    written (session t theme ⟨some limit⟩ ops) =
      (written (session t theme ⟨none⟩ ops)).take limit := by
  induction ops generalizing theme limit with
  | nil => simp [session, written]
  | cons op ops ih =>
    have later := ih (op.nextTheme theme) (limit - (op.output t theme).length)
    rw [session_unlimited_cons, session_limited_cons]
    simp only [written, List.flatMap_cons, List.take_append] at later ⊢
    rw [later]
    rfl

/-- **A limit cuts the output at a prefix and every cut is reported.** Without a limit no operation
fails. With one the front of that output is written, and of the operations exactly those fail that
have output which goes beyond the limit, however long after it was reached. -/
theorem session_cut (limit : Nat) (ops : List Operation) :
    let full := session t theme ⟨none⟩ ops
    let cut := session t theme ⟨some limit⟩ ops
    (∀ d ∈ full, d.fault = none) ∧
    written cut = (written full).take (min limit (written full).length) ∧
    cut = full.mapIdx fun i d => d.limited limit (written (full.take i)).length := by
  refine ⟨fun d hd => fault_of_mem_unlimited t theme hd, ?_, ?_⟩
  · rw [written_limited, List.take_eq_take_iff]
    omega
  · refine List.ext_getElem? fun i => ?_
    rw [session_limited, List.getElem?_mapIdx]

end Session

end LineTint.Terminal
