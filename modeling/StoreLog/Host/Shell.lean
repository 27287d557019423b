-- SUMMARY: Shells, which run scripts.
import StoreLog.Host.Expand

/-!
# Shells

A shell runs a script on a machine that it shares with other processes. Its commands are
its own, or processes that it starts. It ends at the end of its script, or before by
`exit`, by `kill`, or on a failure that nobody looks at after `set -e`.
-/

namespace StoreLog.Host

structure Shell where
  machine : Machine
  /-- The name of the script. -/
  name : Text
  args : List Text
  env : List (Text × Text)
  /-- The variables that commands do not get. -/
  vars : List (Text × Text) := []
  out : Stream
  err : Stream
  number : Nat
  /-- The exit code of the last command. -/
  status : Nat := 0
  exitsOnFailure : Bool := false
  /-- How the shell has ended, if it has. -/
  ended : Option Ending := none

namespace Shell

def scope (s : Shell) : Scope :=
  ⟨s.name, s.args, s.vars ++ s.env, s.status, s.number⟩

/-- Go on, unless the shell has ended. -/
def andThen (s : Shell) (next : Shell → Shell) : Shell :=
  if s.ended.isSome then s else next s

def endWith (s : Shell) (e : Ending) : Shell :=
  { s with ended := some e }

/-- Say what is wrong. -/
def complain (s : Shell) (message : String) : Shell :=
  { s with machine := s.machine.say s.err (s.name ++ ": ".toList ++ message.toList) }

/-- Say what is wrong, and end in failure. -/
def fail (s : Shell) (message : String) : Shell :=
  (s.complain message).endWith (.code 2)

/-- Give a variable a value. -/
def assign (s : Shell) (name value : Text) : Shell :=
  let others := s.vars.filter (·.1 != name)
  if (s.env.lookup name).isSome then
    { s with env := s.env.map fun (n, v) => if n = name then (n, value) else (n, v) }
  else { s with vars := (name, value) :: others }

/-- End if the last command has failed, nobody looks at that, and the shell has been told
to. -/
def settle (tested : Bool) (s : Shell) : Shell :=
  if s.exitsOnFailure && !tested && s.status != 0 then s.endWith (.code s.status) else s

/-! ## Redirections -/

/-- Open a file for writing, at its end or emptied. -/
def openFile (t : Tree) (append : Bool) (p : Path) : Except IoError (Tree × Loc) :=
  match (if append then (t.openRead p).toOption else none) with
  | some l => if t.entryAt l = some .dir then .error (.os .isDirectory) else .ok (t, l)
  | none => t.create p

def setStream (s : Shell) (isErr : Bool) (stream : Stream) : Shell :=
  if isErr then { s with err := stream } else { s with out := stream }

/-- Carry out a redirection. The value tells whether that worked. -/
def redirect (s : Shell) : Redirect → Shell × Bool
  | .share isErr toErr => (s.setStream isErr (if toErr then s.err else s.out), true)
  | .file isErr append target =>
    let target := (s.scope.fields target).map plainText
    match openFile s.machine.tree append (Octets.bytes (target.headD [])) with
    | .error _ => (s.complain "cannot create file", false)
    | .ok (t, l) =>
      let s := { s with machine := { s.machine with tree := t } }
      (s.setStream isErr (.file l), true)

def redirectAll (s : Shell) : List Redirect → Shell × Bool
  | [] => (s, true)
  | r :: rs =>
    match s.redirect r with
    | (s, true) => s.redirectAll rs
    | (s, false) => (s, false)

/-! ## Commands -/

/-- The signals that end a process, by their names. -/
def signals : List (String × Nat) :=
  [("HUP", 1), ("INT", 2), ("QUIT", 3), ("ABRT", 6), ("KILL", 9), ("TERM", 15)]

def number? (s : Text) : Option Nat :=
  (String.ofList s).toNat?

def signal? (s : Text) : Option Nat :=
  match number? s with
  | some n => if signals.any (·.2 == n) then some n else none
  | none => signals.lookup (String.ofList s)

/-- Send a signal to this shell; no other process is there to get one. -/
def kill (args : List Text) (s : Shell) : Shell :=
  let (signal, ids) : Option Nat × List Text :=
    match args with
    | ('-' :: name) :: ids => (signal? name, ids)
    | ids => (some 15, ids)
  match signal with
  | none => s.fail "no such signal"
  | some n =>
    if ids = [ofNat s.number] then s.endWith (.signal n)
    else { s.complain "no such process" with status := 1 }

def exit (args : List Text) (s : Shell) : Shell :=
  match args with
  | [] => s.endWith (.code s.status)
  | a :: _ =>
    match number? a with
    | some n => s.endWith (.code (n % 256))
    | none => s.fail "not a number"

def setOptions (args : List Text) (s : Shell) : Shell :=
  match args with
  | [['-', 'e']] => { s with exitsOnFailure := true, status := 0 }
  | [['+', 'e']] => { s with exitsOnFailure := false, status := 0 }
  | _ => s.fail "unknown option"

/-- The commands that change how a shell goes on. -/
def controls : List (String × (List Text → Shell → Shell)) :=
  [("exit", exit), ("kill", kill), ("set", setOptions)]

/-- The programs that a shell carries out itself. Its `echo` replaces escapes. -/
def builtins : List (String × Program) := [
  (":", .quiet 0), ("[", .bracket), ("echo", .echoing Program.unescaped), ("false", .quiet 1),
  ("printf", .printf), ("test", .test), ("true", .quiet 0)]

/-- Run a command as a process. -/
def startProcess (start : Starter) (launch : Launch) (s : Shell) : Shell :=
  match start launch s.machine with
  | .ok (machine, ending) => { s with machine, status := ending.toCode }
  | .error (.os .notFound) => { s.complain "not found" with status := 127 }
  | .error _ => { s.complain "cannot be started" with status := 126 }

def invoke (start : Starter) (name : Text) (args : List Text) (s : Shell) : Shell :=
  let launch : Launch := { name, args, env := s.env, out := s.out, err := s.err }
  match controls.lookup (String.ofList name), Program.named? builtins name with
  | some act, _ => act args s
  | none, some program =>
    let (machine, status) := s.machine.run program launch
    { s with machine, status }
  | none, none => s.startProcess start launch

def runSimple (start : Starter) (words : List Word) (redirects : List Redirect) (s : Shell) :
    Shell :=
  let fields := s.scope.expand s.machine.tree words
  let s' :=
    match s.redirectAll redirects with
    | (s', false) => { s' with status := 2 }
    | (s', true) =>
      match fields with
      | [] => { s' with status := 0 }
      | name :: args => s'.invoke start name args
  { s' with out := s.out, err := s.err }

/-! ## Scripts -/

/-- Do something in a shell of its own, which leaves what it has done to the machine and
its exit code. A signal is sent to the shell around it. -/
def inSubshell (act : Shell → Shell) (s : Shell) : Shell :=
  let inner := act s
  match inner.ended with
  | some (.signal n) => { s with machine := inner.machine, ended := some (.signal n) }
  | some (.code n) => { s with machine := inner.machine, status := n }
  | none => { s with machine := inner.machine, status := inner.status }

/-- Run a script. Of one that is tested somebody looks at the exit code, so that its
failure does not end the shell. -/
def run (start : Starter) : (tested : Bool) → Script → Shell → Shell
  | _, .nothing, s => s
  | tested, .simple words redirects, s =>
    (s.runSimple start words redirects).andThen (settle tested)
  | tested, .seq a b, s => (run start tested a s).andThen (run start tested b)
  | tested, .both a b, s =>
    (run start true a s).andThen fun s => if s.status = 0 then run start tested b s else s
  | tested, .either a b, s =>
    (run start true a s).andThen fun s => if s.status ≠ 0 then run start tested b s else s
  | tested, .subshell a, s => (s.inSubshell (run start tested a)).andThen (settle tested)
  | tested, .each name words body, s =>
    (s.scope.expand s.machine.tree words).foldl
      (fun s v => s.andThen fun s => run start tested body (s.assign name v)) { s with status := 0 }

/-- Run a shell as a process that is given a script, its name and its arguments. -/
def runScript (start : Starter) (launch : Launch) (m : Machine) : Machine × Ending :=
  let number := m.lastShell + 1
  let s : Shell := {
    machine := { m with lastShell := number }, name := launch.name, args := []
    env := launch.env, out := launch.out, err := launch.err, number }
  let last :=
    match launch.args with
    | ['-', 'c'] :: text :: rest =>
      let s := { s with name := rest.headD s.name, args := rest.tail }
      match Script.read text with
      | some script => s.run start false script
      | none => s.fail "syntax error"
    | _ => s.fail "script expected"
  (last.machine, last.ended.getD (.code last.status))

end Shell

end StoreLog.Host
