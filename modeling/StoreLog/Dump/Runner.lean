-- SUMMARY: Starters of commands as parameters of a run, and what can come of a command.
import StoreLog.Dump.Invocation
import StoreLog.Tree.Work

/-!
# Runners

What carries out an invocation. A runner may change the tree and has a state of
its own; it never fails itself, as a command that cannot be started is an outcome
like any other.
-/

namespace StoreLog

inductive CommandOutcome
  | succeeded
  /-- The command ended in failure; a command ended by a signal has no code. -/
  | exited (code : Option Int)
  | notStarted (error : IoError)
deriving DecidableEq, Repr

def CommandOutcome.isSuccess (o : CommandOutcome) : Bool :=
  o == .succeeded

namespace Runner

/-- What the run of one command leaves. -/
structure Turn (σ : Type) where
  tree : Tree
  state : σ
  events : List Event
  outcome : CommandOutcome

end Runner

def Runner (σ : Type) : Type :=
  Invocation → Tree → σ → Runner.Turn σ

namespace Runner

/-- A runner that only says what comes of its commands: the given outcomes in
turn, over and over. Its state is the number of commands so far. -/
def scripted (outcomes : List CommandOutcome) : Runner Nat := fun _ t n =>
  ⟨t, n + 1, [], outcomes[n % outcomes.length]?.getD .succeeded⟩

/-- The same runner, with a list of the invocations it was given. -/
def recorded {σ : Type} (run : Runner σ) : Runner (List Invocation × σ) :=
  fun i t (calls, s) =>
    let turn := run i t s
    ⟨turn.tree, (calls ++ [i], turn.state), turn.events, turn.outcome⟩

end Runner

end StoreLog
