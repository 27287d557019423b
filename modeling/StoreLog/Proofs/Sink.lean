-- SUMMARY: What a sink has taken after acts that may fail, buffered or not.
import StoreLog.Sink

/-!
# Writing with and without faults

A sink that never fails takes the bytes of all acts, in order. Some may be held
back in its buffer until it is closed. A sink that takes only so many bytes has the
first ones. It fails if there are more, at a flush at the latest, and as soon as there
are if it has no buffer.
-/

namespace StoreLog

/-- The bytes that an act writes. -/
def Act.bytes : Act → Bytes
  | .write bytes => bytes
  | .note _ | .flush => []

/-- The bytes that acts write, one after the other. -/
def Act.output (acts : List Act) : Bytes :=
  acts.flatMap Act.bytes

@[simp] theorem Act.output_nil : Act.output [] = [] := rfl

@[simp] theorem Act.output_cons (a : Act) (acts : List Act) :
    Act.output (a :: acts) = a.bytes ++ Act.output acts := rfl

@[simp] theorem Act.output_append (acts more : List Act) :
    Act.output (acts ++ more) = Act.output acts ++ Act.output more :=
  List.flatMap_append

namespace Sink

/-! ## Acts and more acts -/

theorem perform_append_of_fault {s : Sink} {acts : List Act} {e : IoError}
    (h : (s.perform acts).fault = some e) (more : List Act) :
    s.perform (acts ++ more) = s.perform acts := by
  induction acts generalizing s with
  | nil => cases h
  | cons a acts ih =>
    cases a with
    | note e => exact congrArg (·.withEvent e) (ih h)
    | write bytes =>
      simp only [perform, List.cons_append] at h ⊢
      split
      · next hw => exact ih (by simpa only [hw] using h)
      · rfl
    | flush =>
      simp only [perform, List.cons_append] at h ⊢
      split
      · next hf => exact ih (by simpa only [hf] using h)
      · rfl

theorem perform_append_of_none {s : Sink} {acts : List Act} (h : (s.perform acts).fault = none)
    (more : List Act) :
    (s.perform (acts ++ more)).sink = ((s.perform acts).sink.perform more).sink ∧
      (s.perform (acts ++ more)).fault = ((s.perform acts).sink.perform more).fault := by
  induction acts generalizing s with
  | nil => exact ⟨rfl, rfl⟩
  | cons a acts ih =>
    cases a with
    | note e => exact ih h
    | write bytes =>
      simp only [perform, List.cons_append] at h ⊢
      split
      · next hw => exact ih (by simpa only [hw] using h)
      · next hw => simp [hw] at h
    | flush =>
      simp only [perform, List.cons_append] at h ⊢
      split
      · next hf => exact ih (by simpa only [hf] using h)
      · next hf => simp [hf] at h

/-! ## Sinks that never fail -/

/-- A sink that never fails. Its buffer may have any size. -/
structure IsReliable (s : Sink) : Prop where
  room : s.room = none
  flushFault : s.flushFault = none

theorem isReliable_unlimited : unlimited.IsReliable := ⟨rfl, rfl⟩

/-- The bytes that have arrived, and those that are held back. -/
def taken (s : Sink) : Bytes :=
  s.written ++ s.held

@[simp] theorem taken_unlimited : unlimited.taken = [] := rfl

variable {s : Sink}

theorem drain_of_isReliable (h : s.IsReliable) :
    s.drain = ({ s with written := s.taken, held := [] }, none) := by
  simp only [drain, send, h.room, taken]

theorem write_of_isReliable (h : s.IsReliable) (bytes : Bytes) :
    ∃ s', s.write bytes = (s', none) ∧ s'.IsReliable ∧ s'.taken = s.taken ++ bytes := by
  unfold write
  simp only
  split
  · exact ⟨_, rfl, ⟨h.room, h.flushFault⟩, by simp [taken]⟩
  next hspace =>
  by_cases hfull : s.capacity - s.held.length < bytes.length
  · rw [if_pos hfull, drain_of_isReliable h]
    simp only
    split
    · simp only [send, h.room]
      exact ⟨_, rfl, ⟨rfl, h.flushFault⟩, by simp [taken]⟩
    · exact ⟨_, rfl, ⟨h.room, h.flushFault⟩, by simp [taken]⟩
  · rw [if_neg hfull]
    simp only
    split
    · -- Bytes that fill the space and need no buffer leave none behind them in it.
      have hnil : bytes = [] ∨ s.held = [] := by
        rw [← List.length_eq_zero_iff, ← List.length_eq_zero_iff]
        omega
      simp only [send, h.room]
      exact ⟨_, rfl, ⟨rfl, h.flushFault⟩, by rcases hnil with hn | hn <;> simp [taken, hn]⟩
    · exact ⟨_, rfl, ⟨h.room, h.flushFault⟩, by simp [taken]⟩

theorem flush_of_isReliable (h : s.IsReliable) :
    ∃ s', s.flush = (s', none) ∧ s'.IsReliable ∧ s'.taken = s.taken := by
  refine ⟨{ s with written := s.taken, held := [] }, ?_, ⟨h.room, h.flushFault⟩, by simp [taken]⟩
  simp only [flush, drain_of_isReliable h, h.flushFault]

theorem perform_of_isReliable (h : s.IsReliable) (acts : List Act) :
    (s.perform acts).fault = none ∧ (s.perform acts).sink.IsReliable ∧
      (s.perform acts).sink.taken = s.taken ++ Act.output acts := by
  induction acts generalizing s with
  | nil => exact ⟨rfl, h, by simp [perform]⟩
  | cons a acts ih =>
    cases a with
    | note e => simpa [perform, Performance.withEvent, Act.bytes] using ih h
    | write bytes =>
      obtain ⟨s', hw, h', ht⟩ := write_of_isReliable h bytes
      simpa [perform, hw, ht, Act.bytes] using ih h'
    | flush =>
      obtain ⟨s', hf, h', ht⟩ := flush_of_isReliable h
      simpa [perform, hf, ht, Act.bytes] using ih h'

/-- Closed after a run of acts, a sink that never fails has all their bytes. -/
theorem written_close_perform (h : s.IsReliable) (acts : List Act) :
    (s.perform acts).sink.close.written = s.taken ++ Act.output acts := by
  obtain ⟨-, hs, ht⟩ := perform_of_isReliable h acts
  rw [close, drain_of_isReliable hs]
  exact ht

/-! ## Sinks that take so many bytes -/

/-- A sink that takes `n` bytes in all, of the kind of `d`. It was given `out`, and holds back what
has not arrived. -/
structure HasTaken (d : Sink) (n : Nat) (out : Bytes) (s : Sink) : Prop where
  fault : s.fault = d.fault
  flushFault : s.flushFault = d.flushFault
  capacity : s.capacity = d.capacity
  room : s.room = some (n - s.written.length)
  fits : s.written.length ≤ n
  buffered : s.held.length ≤ s.capacity
  taken : s.taken = out

/-- A sink that takes `n` bytes in all and was given more. The first ones have arrived, and the
others are lost. -/
structure HasLost (n : Nat) (out : Bytes) (s : Sink) : Prop where
  written : s.written = out.take n
  exceeds : n < out.length
  held : s.held = []

/-- What comes of a sink that takes `n` bytes in all once it was given `out`. -/
inductive TakesOrLoses (d : Sink) (n : Nat) (out : Bytes) : Sink × Option IoError → Prop
  | taken {s : Sink} (h : HasTaken d n out s) : TakesOrLoses d n out (s, none)
  | lost {s : Sink} (h : HasLost n out s) : TakesOrLoses d n out (s, some d.fault)

variable {d : Sink} {n : Nat} {out : Bytes}

theorem hasTaken_fresh (n capacity : Nat) (fault : IoError) (flushFault : Option IoError) :
    let s : Sink := { room := some n, capacity, fault, flushFault }
    HasTaken s n [] s :=
  ⟨rfl, rfl, rfl, rfl, Nat.zero_le n, Nat.zero_le capacity, rfl⟩

theorem HasTaken.written_eq (h : HasTaken d n out s) (hheld : s.held = []) : s.written = out := by
  rw [← h.taken, Sink.taken, hheld, List.append_nil]

theorem HasTaken.length_le (h : HasTaken d n out s) (hheld : s.held = []) : out.length ≤ n :=
  h.written_eq hheld ▸ h.fits

/-- Bytes that fit into the buffer are held back. -/
theorem HasTaken.hold (h : HasTaken d n out s) {bytes : Bytes}
    (hspace : s.held.length + bytes.length ≤ s.capacity) :
    HasTaken d n (out ++ bytes) { s with held := s.held ++ bytes } :=
  { h with
    buffered := by rwa [← List.length_append] at hspace
    taken := by rw [← h.taken, Sink.taken, Sink.taken, List.append_assoc] }

/-- What is given to a sink that has lost bytes is lost too. -/
theorem HasLost.append (h : HasLost n out s) (bytes : Bytes) : HasLost n (out ++ bytes) s where
  written := by rw [h.written, List.take_append_of_le_length (Nat.le_of_lt h.exceeds)]
  exceeds := by
    rw [List.length_append]
    exact Nat.lt_add_right _ h.exceeds
  held := h.held

/-- Nothing is left to arrive where nothing is held back. -/
theorem written_close_of_held (h : s.held = []) : s.close.written = s.written := by
  rw [close, drain, h, send]
  split <;> simp

theorem HasTaken.written_close (h : HasTaken d n out s) (hheld : s.held = []) :
    s.close.written = out.take n := by
  rw [written_close_of_held hheld, h.written_eq hheld, List.take_of_length_le (h.length_le hheld)]

theorem HasLost.written_close (h : HasLost n out s) : s.close.written = out.take n := by
  rw [written_close_of_held h.held, h.written]

/-! ### Writes -/

theorem send_of_hasTaken (h : HasTaken d n out s) (hheld : s.held = []) (bytes : Bytes) :
    TakesOrLoses d n (out ++ bytes) (s.send bytes) := by
  have hout := h.written_eq hheld
  have hfits := h.fits
  rw [send, h.room]
  by_cases hfit : bytes.length ≤ n - s.written.length
  · simp only [if_pos hfit, List.take_of_length_le hfit]
    refine .taken { h with room := ?_, fits := ?_, taken := ?_ }
    · simp only [List.length_append, Option.some.injEq]
      omega
    · simp only [List.length_append]
      omega
    · simp only [taken, hheld, List.append_nil, hout]
  · simp only [if_neg hfit, h.fault]
    refine .lost { written := ?_, exceeds := ?_, held := hheld }
    · rw [← hout, List.take_append, List.take_of_length_le hfits]
    · rw [← hout, List.length_append]
      omega

theorem held_drain (s : Sink) : s.drain.1.held = [] := by
  rw [drain, send]
  split <;> rfl

theorem drain_of_hasTaken (h : HasTaken d n out s) : TakesOrLoses d n out s.drain := by
  have hempty : HasTaken d n s.written { s with held := [] } :=
    { h with buffered := Nat.zero_le _, taken := List.append_nil _ }
  have hsend := send_of_hasTaken hempty rfl s.held
  rwa [← taken, h.taken] at hsend

theorem write_of_hasTaken (h : HasTaken d n out s) (bytes : Bytes) :
    TakesOrLoses d n (out ++ bytes) (s.write bytes) := by
  have hbuffered := h.buffered
  unfold write
  simp only
  split
  · exact .taken (h.hold (by omega))
  next hspace =>
  by_cases hfull : s.capacity - s.held.length < bytes.length
  · rw [if_pos hfull]
    have hheld := held_drain s
    have hdrain := drain_of_hasTaken h
    generalize s.drain = r at hheld hdrain
    cases hdrain with
    | lost hl => exact .lost (hl.append bytes)
    | @taken s' ht =>
      have hheld : s'.held = [] := hheld
      simp only
      split
      · exact send_of_hasTaken ht hheld bytes
      · next hlong => exact .taken (ht.hold (by simp only [hheld, List.length_nil]; omega))
  · rw [if_neg hfull]
    simp only
    split
    · -- Bytes that fill the space and need no buffer come to an empty one.
      have hheld : s.held = [] := List.eq_nil_of_length_eq_zero (by omega)
      exact send_of_hasTaken h hheld bytes
    · exact .taken (h.hold (by omega))

/-! ### Acts -/

theorem perform_of_hasTaken (h : HasTaken d n out s) {acts : List Act} (hacts : .flush ∉ acts) :
    TakesOrLoses d n (out ++ Act.output acts) ((s.perform acts).sink, (s.perform acts).fault) := by
  induction acts generalizing s out with
  | nil =>
    rw [Act.output_nil, List.append_nil]
    exact .taken h
  | cons a acts ih =>
    obtain ⟨ha, hrest⟩ := not_or.1 (mt List.mem_cons.2 hacts)
    rw [Act.output_cons, ← List.append_assoc]
    cases a with
    | note e =>
      rw [Act.bytes, List.append_nil]
      exact ih h hrest
    | flush => exact absurd rfl ha
    | write bytes =>
      have hwrite := write_of_hasTaken h bytes
      rw [perform]
      generalize s.write bytes = r at hwrite
      cases hwrite with
      | taken ht => exact ih ht hrest
      | lost hl => exact .lost (hl.append _)

/-- A flush tells whether all bytes have arrived. -/
theorem flush_of_hasTaken (h : HasTaken d n out s) :
    s.flush.1.close.written = out.take n ∧
      s.flush.2 = if out.length ≤ n then d.flushFault else some d.fault := by
  have hheld := held_drain s
  have hdrain := drain_of_hasTaken h
  rw [flush]
  generalize s.drain = r at hheld hdrain
  cases hdrain with
  | @taken s' ht =>
    refine ⟨ht.written_close hheld, ?_⟩
    rw [if_pos (ht.length_le hheld)]
    exact ht.flushFault
  | lost hl => exact ⟨hl.written_close, (if_neg (Nat.not_le.2 hl.exceeds)).symm⟩

theorem TakesOrLoses.hasTaken (h : TakesOrLoses d n out (s, none)) : HasTaken d n out s := by
  cases h with
  | taken h => exact h

theorem TakesOrLoses.hasLost {e : IoError} (h : TakesOrLoses d n out (s, some e)) :
    e = d.fault ∧ HasLost n out s := by
  cases h with
  | lost h => exact ⟨rfl, h⟩

@[simp] theorem perform_map_note (s : Sink) (events : List Event) :
    s.perform (events.map .note) = ⟨s, events, none⟩ := by
  induction events with
  | nil => rfl
  | cons e events ih => rw [List.map_cons, perform, ih, Performance.withEvent]

theorem perform_flush_notes (s : Sink) (events : List Event) :
    (s.perform (.flush :: events.map .note)).sink = s.flush.1 ∧
      (s.perform (.flush :: events.map .note)).fault = s.flush.2 := by
  rw [perform]
  split
  · next hf => simp [hf]
  · next hf => simp [hf]

/-- Acts that end with a flush, but for notes, have the first bytes arrive, and fail if these are
not all. -/
theorem perform_append_flush (h : HasTaken d n out d) {acts : List Act} (hacts : .flush ∉ acts)
    (events : List Event) :
    let p := d.perform (acts ++ .flush :: events.map .note)
    p.sink.close.written = (out ++ Act.output acts).take n ∧
      p.fault = if (out ++ Act.output acts).length ≤ n then d.flushFault else some d.fault := by
  intro p
  have hperform := perform_of_hasTaken h hacts
  cases hf : (d.perform acts).fault with
  | none =>
    rw [hf] at hperform
    obtain ⟨hsink, hfault⟩ := perform_append_of_none hf (.flush :: events.map .note)
    obtain ⟨hsink', hfault'⟩ := perform_flush_notes (d.perform acts).sink events
    obtain ⟨hwritten, hflush⟩ := flush_of_hasTaken hperform.hasTaken
    refine ⟨?_, ?_⟩
    · rw [hsink, hsink', hwritten]
    · rw [hfault, hfault', hflush]
  | some e =>
    rw [hf] at hperform
    obtain ⟨rfl, hlost⟩ := hperform.hasLost
    have hp : p = d.perform acts := perform_append_of_fault hf _
    rw [hp, hf, if_neg (Nat.not_le.2 hlost.exceeds)]
    exact ⟨hlost.written_close, rfl⟩

/-- Without a buffer, acts need no flush for that. -/
theorem perform_of_unbuffered (h : HasTaken d n out d) (hd : d.capacity = 0) {acts : List Act}
    (hacts : .flush ∉ acts) :
    (d.perform acts).sink.close.written = (out ++ Act.output acts).take n ∧
      (d.perform acts).fault =
        if (out ++ Act.output acts).length ≤ n then none else some d.fault := by
  have hperform := perform_of_hasTaken h hacts
  cases hf : (d.perform acts).fault with
  | none =>
    rw [hf] at hperform
    have htaken := hperform.hasTaken
    have hheld : (d.perform acts).sink.held = [] := by
      have hbuffered := htaken.buffered
      rw [htaken.capacity, hd, Nat.le_zero, List.length_eq_zero_iff] at hbuffered
      exact hbuffered
    rw [if_pos (htaken.length_le hheld)]
    exact ⟨htaken.written_close hheld, rfl⟩
  | some e =>
    rw [hf] at hperform
    obtain ⟨rfl, hlost⟩ := hperform.hasLost
    rw [if_neg (Nat.not_le.2 hlost.exceeds)]
    exact ⟨hlost.written_close, rfl⟩

/-- A sink without a buffer that takes `n` more bytes. -/
structure IsLimited (s : Sink) (n : Nat) : Prop where
  room : s.room = some n
  capacity : s.capacity = 0
  held : s.held = []

theorem IsLimited.hasTaken (h : s.IsLimited n) :
    HasTaken s (s.written.length + n) s.written s where
  fault := rfl
  flushFault := rfl
  capacity := rfl
  room := by rw [h.room, Nat.add_sub_cancel_left]
  fits := Nat.le_add_right _ _
  buffered := by simp [h.held]
  taken := by rw [taken, h.held, List.append_nil]

end Sink

end StoreLog
