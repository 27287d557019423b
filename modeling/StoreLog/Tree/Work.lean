-- SUMMARY: Pieces of work on a tree: what they leave, log and result in.
import StoreLog.Event
import StoreLog.Tree.Basic

/-!
# Work on a tree

What a piece of work leaves: a tree, the events on the way, and a result.
-/

namespace StoreLog

structure Work (ε α : Type) where
  tree : Tree
  events : List Event
  result : Except ε α

namespace Work

variable {ε δ α β : Type}

/-- The same work after other events. -/
def after (events : List Event) (w : Work ε α) : Work ε α :=
  { w with events := events ++ w.events }

def map (f : α → β) (w : Work ε α) : Work ε β :=
  { w with result := w.result.map f }

@[simp] theorem tree_after (events : List Event) (w : Work ε α) :
    (w.after events).tree = w.tree := rfl

@[simp] theorem result_after (events : List Event) (w : Work ε α) :
    (w.after events).result = w.result := rfl

@[simp] theorem tree_map (f : α → β) (w : Work ε α) : (w.map f).tree = w.tree := rfl

@[simp] theorem result_map (f : α → β) (w : Work ε α) : (w.map f).result = w.result.map f := rfl

/-- Go on with the next piece of work if this one has a result. -/
def andThen (w : Work ε α) (next : Tree → α → Work ε β) : Work ε β :=
  match w.result with
  | .error e => ⟨w.tree, w.events, .error e⟩
  | .ok a => (next w.tree a).after w.events

variable {w : Work ε α}

theorem andThen_of_error {e : ε} (h : w.result = .error e) (next : Tree → α → Work ε β) :
    w.andThen next = ⟨w.tree, w.events, .error e⟩ := by
  simp only [andThen, h]

theorem andThen_of_ok {a : α} (h : w.result = .ok a) (next : Tree → α → Work ε β) :
    w.andThen next = (next w.tree a).after w.events := by
  simp only [andThen, h]

/-- What has failed is the work itself, or what came after its success. -/
theorem andThen_eq_error {next : Tree → α → Work ε β} {e : ε}
    (h : (w.andThen next).result = .error e) :
    w.result = .error e ∧ (w.andThen next).tree = w.tree ∨
      ∃ a, w.result = .ok a ∧ (next w.tree a).result = .error e := by
  cases hw : w.result with
  | error e' =>
    rw [andThen_of_error hw] at h ⊢
    obtain rfl := Except.error.inj h
    exact .inl ⟨rfl, rfl⟩
  | ok a =>
    rw [andThen_of_ok hw, result_after] at h
    exact .inr ⟨a, rfl, h⟩

/-- What only reports on a piece of work leaves the tree as it is. -/
theorem tree_andThen {next : Tree → α → Work ε β} (h : ∀ t a, (next t a).tree = t) :
    (w.andThen next).tree = w.tree := by
  cases hw : w.result with
  | error e => rw [andThen_of_error hw]
  | ok a => rw [andThen_of_ok hw, tree_after, h]

theorem result_andThen {next : Tree → α → Work ε β} {f : α → β}
    (h : ∀ t a, (next t a).result = .ok (f a)) :
    (w.andThen next).result = w.result.map f := by
  cases hw : w.result with
  | error e => rw [andThen_of_error hw, Except.map]
  | ok a => rw [andThen_of_ok hw, result_after, h, Except.map]

end Work

end StoreLog
