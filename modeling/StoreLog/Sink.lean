-- SUMMARY: Sinks of bytes that may fail, and writers with a buffer.
import StoreLog.Event

/-!
# Sinks

Where the bytes of an output go. A sink may take only so many bytes, may fail to
flush, and may hold bytes back in a buffer. The work of a writer is a list of
acts; `Sink.perform` carries it out up to the first act that fails.
-/

namespace StoreLog

structure Sink where
  /-- The bytes that have arrived. -/
  written : Bytes := []
  /-- How many more bytes can arrive; any number if there is no limit. -/
  room : Option Nat := none
  /-- What is reported once there is no room. -/
  fault : IoError := .os .noSpace
  /-- What a flush reports, if flushing fails. -/
  flushFault : Option IoError := none
  /-- The size of the buffer in front of the sink. -/
  capacity : Nat := 0
  /-- The bytes in the buffer. -/
  held : Bytes := []
deriving DecidableEq, Repr

/-- One step of a writer's work. -/
inductive Act
  | note (event : Event)
  | write (bytes : Bytes)
  | flush
deriving DecidableEq, Repr

namespace Sink

/-- A sink that takes everything. -/
def unlimited : Sink := {}

/-- A buffered file on a device that is full. -/
def full : Sink :=
  { room := some 0, capacity := 8192 }

/-! ## Single writes -/

/-- Pass bytes on past the buffer: those that fit arrive. -/
def send (s : Sink) (bytes : Bytes) : Sink × Option IoError :=
  match s.room with
  | none => ({ s with written := s.written ++ bytes }, none)
  | some n =>
    ({ s with written := s.written ++ bytes.take n, room := some (n - bytes.length) },
      if bytes.length ≤ n then none else some s.fault)

/-- Send what the buffer holds. -/
def drain (s : Sink) : Sink × Option IoError :=
  { s with held := [] }.send s.held

/-- Bytes go into the buffer if they fit there, else past it once it is drained. -/
def write (s : Sink) (bytes : Bytes) : Sink × Option IoError :=
  let space := s.capacity - s.held.length
  if bytes.length < space then ({ s with held := s.held ++ bytes }, none)
  else
    match (if space < bytes.length then s.drain else (s, none)) with
    | (s, some e) => (s, some e)
    | (s, none) =>
      if s.capacity ≤ bytes.length then s.send bytes
      else ({ s with held := s.held ++ bytes }, none)

def flush (s : Sink) : Sink × Option IoError :=
  match s.drain with
  | (s, some e) => (s, some e)
  | (s, none) => (s, s.flushFault)

/-! ## Acts -/

/-- The sink after a run of acts, the events of the run, and the fault that ended
it, if one did. -/
structure Performance where
  sink : Sink
  events : List Event
  fault : Option IoError
deriving DecidableEq, Repr

def Performance.withEvent (p : Performance) (e : Event) : Performance :=
  { p with events := e :: p.events }

def perform (s : Sink) : List Act → Performance
  | [] => ⟨s, [], none⟩
  | .note e :: acts => (perform s acts).withEvent e
  | .write bytes :: acts =>
    match s.write bytes with
    | (s, none) => perform s acts
    | (s, some fault) => ⟨s, [], some fault⟩
  | .flush :: acts =>
    match s.flush with
    | (s, none) => perform s acts
    | (s, some fault) => ⟨s, [], some fault⟩

/-- Close a sink: what the buffer holds is sent if it still can be. -/
def close (s : Sink) : Sink :=
  s.drain.1

end Sink

end StoreLog
