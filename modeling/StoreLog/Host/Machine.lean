-- SUMMARY: What processes share, and what one is started with.
import StoreLog.IoError
import StoreLog.Printed
import StoreLog.Text.Octets
import StoreLog.Tree.Basic

/-!
# Machines

What processes share: a tree, and what has been printed. A process has a name, arguments,
an environment, and two streams for its output. It gets no input. What it knows are texts
of octets.
-/

namespace StoreLog.Host

structure Machine where
  tree : Tree
  printed : Printed := {}
  /-- The number of the last shell that was started. -/
  lastShell : Nat := 4096

/-- Where output goes to. -/
inductive Stream
  | out
  | err
  /-- The end of a file. -/
  | file (l : Loc)
deriving DecidableEq, Repr

/-- What a process is started with. -/
structure Launch where
  name : Text
  args : List Text
  env : List (Text × Text)
  out : Stream := .out
  err : Stream := .err

inductive Ending
  | code (n : Nat)
  | signal (n : Nat)
deriving DecidableEq, Repr

/-- The exit code by which a shell knows how a command ended. -/
def Ending.toCode : Ending → Nat
  | .code n => n
  | .signal n => 128 + n

/-- How processes are started. A command that cannot be started is an error. -/
abbrev Starter := Launch → Machine → Except IoError (Machine × Ending)

namespace Machine

/-- Write to a stream. The value tells whether that worked. -/
def write (m : Machine) (stream : Stream) (s : Text) : Machine × Bool :=
  let s := Octets.bytes s
  match stream with
  | .out => ({ m with printed := { m.printed with out := m.printed.out ++ s } }, true)
  | .err => ({ m with printed := { m.printed with err := m.printed.err ++ s } }, true)
  | .file l =>
    match m.tree.entryAt l with
    | some (.file content executable) =>
      ({ m with tree := m.tree.put l (.file (content ++ s) executable) }, true)
    | some (.device .full) => (m, s.isEmpty)
    | _ => (m, true)

def say (m : Machine) (stream : Stream) (message : Text) : Machine :=
  (m.write stream (message ++ ['\n'])).1

end Machine

end StoreLog.Host
