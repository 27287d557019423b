-- SUMMARY: How a host starts commands: the runner that the command line uses.
import StoreLog.Dump.Runner
import StoreLog.Host.Shell

/-!
# Starting processes

A command whose name has a slash is at that path. Any other is looked for in a list of
directories, of which the first counts that has something to execute. It is a shell, a
program, or `env`, which starts another command.

This is what the command line runs dumps with. No result about dumps depends on it: there a
runner is given.
-/

namespace StoreLog.Host

/-! ## Finding commands -/

/-- Where commands are looked for if nothing else is said. -/
def standardPath : Text :=
  "/usr/local/sbin:/usr/local/bin:/usr/sbin:/usr/bin:/sbin:/bin".toList

/-- The program at a path. -/
def programAt (t : Tree) (p : Path) : Except IoError Name :=
  match t.openRead p with
  | .error e => .error e
  | .ok l =>
    match t.entryAt l with
    | some (.program name) => .ok name
    | _ => .error (.os .permissionDenied)

/-- The program at the first of several paths that has one. That one of them may not be
executed is remembered, in case there is no other. -/
def firstProgram (t : Tree) : (denied : Bool) → List Path → Except IoError Name
  | denied, [] => .error (.os (if denied then .permissionDenied else .notFound))
  | denied, p :: ps =>
    match programAt t p with
    | .ok name => .ok name
    | .error (.os .permissionDenied) => firstProgram t true ps
    | .error (.os .notFound) => firstProgram t denied ps
    | .error (.os .notDirectory) => firstProgram t denied ps
    | .error e => .error e

/-- The program that a command's name leads to. -/
def findProgram (t : Tree) (env : List (Text × Text)) (name : Text) : Except IoError Name :=
  if '/' ∈ name then programAt t (Octets.bytes name)
  else if name.isEmpty then .error (.os .notFound)
  else if Tree.maxName < name.length then .error (.os .nameTooLong)
  else
    let dirs := ((env.lookup "PATH".toList).getD standardPath).splitOn ':'
    firstProgram t false (dirs.map fun dir => Octets.bytes (dir ++ '/' :: name))

/-! ## Starting -/

def shells : List String := ["bash", "dash", "sh"]

/-- The names of all that can be started. -/
def installed : List String :=
  "env" :: shells ++ Program.all.map (·.1)

/-- Start the command that `env` is given, or print the environment. -/
def startNamed (start : Starter) (launch : Launch) (m : Machine) : Machine × Ending :=
  match launch.args with
  | [] =>
    let line : Text × Text → Text := fun (name, value) => name ++ '=' :: value ++ ['\n']
    ((m.write launch.out (launch.env.flatMap line)).1, .code 0)
  | name :: args =>
    match start { launch with name, args } m with
    | .ok r => r
    | .error _ => (m.say launch.err "env: cannot start the command".toList, .code 127)

/-- How many bytes an argument may have. -/
def maxArgument : Nat := 131071

/-- Start a command, which may start further commands, down to a given depth. -/
def start : (depth : Nat) → Starter
  | 0, _, _ => .error (.os .argumentsTooLong)
  | depth + 1, launch, m =>
    if (launch.name :: launch.args).any (maxArgument < ·.length) then
      .error (.os .argumentsTooLong)
    else
      match findProgram m.tree launch.env launch.name with
      | .error e => .error e
      | .ok name =>
        let name := Octets.text name
        if shells.any (·.toList == name) then .ok (Shell.runScript (start depth) launch m)
        else if name = "env".toList then .ok (startNamed (start depth) launch m)
        else
          match Program.named? Program.all name with
          | some program => let (m, code) := m.run program launch; .ok (m, .code code)
          | none => .error (.os .notFound)

/-- How deep commands may start each other. -/
def maxDepth : Nat := 64

/-! ## The host -/

def name (s : String) : Name :=
  Path.ofText s.toList

/-- A tree with an empty work directory, devices, and all that is installed. -/
def tree : Tree :=
  let bin : Loc := [name "bin", name "usr"]
  let t := [[name "usr"], bin, [name "sbin", name "usr"], [name "local", name "usr"],
    [name "bin", name "local", name "usr"], [name "sbin", name "local", name "usr"], [name "tmp"]]
    |>.foldl (fun t l => t.put l .dir) Tree.fresh
  let t := installed.foldl (fun t s => t.put (name s :: bin) (.program (name s))) t
  (t.put [name "bin"] (.link (name "usr/bin"))).put [name "sbin"] (.link (name "usr/sbin"))

/-- The environment of a command, from a home directory and a level for its log, if there
are any. -/
def environment (home logLevel : Option Text) : List (Text × Text) :=
  (home.map ("HOME".toList, ·)).toList ++ ("PATH".toList, standardPath) ::
    (logLevel.map ("RUST_LOG".toList, ·)).toList

def outcome : Ending → CommandOutcome
  | .code 0 => .succeeded
  | .code n => .exited (some n)
  | .signal _ => .exited none

/-- The runner that starts commands in an environment. Its state is what they have
printed. -/
def runner (env : List (Text × Text)) : Runner Printed := fun i t printed =>
  let turn (t : Tree) (printed : Printed) (outcome : CommandOutcome) : Runner.Turn Printed :=
    ⟨t, printed, [.spawning i.display], outcome⟩
  let name := Utf8.encode i.program
  if (name :: i.args).any (·.contains 0) then turn t printed (.notStarted .nulInCommand)
  else
    let launch : Launch := { name := Octets.text name, args := i.args.map Octets.text, env }
    match start maxDepth launch { tree := t, printed } with
    | .error e => turn t printed (.notStarted e)
    | .ok (m, ending) => turn m.tree m.printed (outcome ending)

end StoreLog.Host
