import ScreenFlow.Process.Basic

/-!
# Tasks

A task works on a shared state in atomic actions and waits between them. While it waits it can be
abandoned, and then undoes what it still holds. `Task.run` goes on until the task waits or is done.
-/

namespace ScreenFlow

inductive Task (σ α : Type) : Type where
  | done (a : α)
  /-- Changes the state; the state from before decides how to go on. -/
  | act (update : σ → σ) (next : σ → Task σ α)
  /-- Waits until the state is ready. `wake` is the time at which it gets ready by itself. -/
  | wait (wake : Option Nat) (ready : σ → Bool) (next : Task σ α) (abandon : σ → σ)

namespace Task

variable {σ α β : Type}

def bind : Task σ α → (α → Task σ β) → Task σ β
  | done a, k => k a
  | act f next, k => act f fun s => (next s).bind k
  | wait w r next a, k => wait w r (next.bind k) a

instance : Monad (Task σ) where
  pure := done
  bind := bind

def get : Task σ σ := act (fun s => s) fun s => done s

def read (f : σ → α) : Task σ α := act (fun s => s) fun s => done (f s)

def modify (f : σ → σ) : Task σ Unit := act f fun _ => done ()

/-- Changes the state and takes a result out of the change. -/
def modifyGet (f : σ → α × σ) : Task σ α := act (fun s => (f s).2) fun s => done (f s).1

def waitUntil (ready : σ → Bool) (wake : Option Nat) : Task σ Unit :=
  wait wake ready (done ()) fun s => s

/-- Adds to what is undone when the task is abandoned. -/
def guarded (undo : σ → σ) : Task σ α → Task σ α
  | done a => done a
  | act f next => act f fun s => guarded undo (next s)
  | wait w r next a => wait w r (guarded undo next) fun s => undo (a s)

/-- The earlier of two times, where no time is never. -/
def earlier : Option Nat → Option Nat → Option Nat
  | some a, some b => some (min a b)
  | a, none => a
  | none, b => b

/-- Abandons the task as soon as it would have to wait while `stop` holds. At a moment when both are
possible, stopping comes first. -/
def cutBefore (wake : Option Nat) (stop : σ → Bool) : Task σ α → Task σ (Option α)
  | done a => done (some a)
  | act f next => act f fun s => cutBefore wake stop (next s)
  | wait w r next a =>
    wait (earlier w wake) (fun s => stop s || r s)
      (act (fun s => if stop s then a s else s)
        fun s => if stop s then done none else cutBefore wake stop next) a

/-- The same, but going on comes first. -/
def cutAfter (wake : Option Nat) (stop : σ → Bool) : Task σ α → Task σ (Option α)
  | done a => done (some a)
  | act f next => act f fun s => cutAfter wake stop (next s)
  | wait w r next a =>
    wait (earlier w wake) (fun s => stop s || r s)
      (act (fun s => if r s then s else a s)
        fun s => if r s then cutAfter wake stop next else done none) a

/-- Goes on until the task waits or is done. -/
def run : Task σ α → σ → σ × Task σ α
  | done a, s => (s, done a)
  | act f next, s => run (next s) (f s)
  | wait w r next a, s => if r s then run next s else (s, wait w r next a)

/-- Whether the task is done or can go on. -/
def isReady (s : σ) : Task σ α → Bool
  | wait _ r _ _ => r s
  | _ => true

def wake? : Task σ α → Option Nat
  | wait w _ _ _ => w
  | _ => none

def result? : Task σ α → Option α
  | done a => some a
  | _ => none

end Task

namespace Process

variable {I : Interface} {σ α : Type}

/-- Answers every question of a process by a task. Where `undo` gives something for a question and its
answer, that is undone if the process is abandoned later. -/
def perform (answer : (q : I.Ask) → Task σ (I.Answer q))
    (undo : (q : I.Ask) → I.Answer q → Option (σ → σ)) : Process I α → Task σ α
  | .done a => .done a
  | .ask q next => (answer q).bind fun a =>
    match undo q a with
    | some u => ((next a).perform answer undo).guarded u
    | none => (next a).perform answer undo

end Process

end ScreenFlow
