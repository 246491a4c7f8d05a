import ScreenFlow.Process.Task

/-!
# Scripts

Tasks one after another and side by side. Tasks side by side go on in turns, always in the order in
which they are listed.
-/

namespace ScreenFlow

inductive Script (σ α : Type) : Type where
  | task (t : Task σ α)
  | andThen (first : Script σ α) (next : α → Script σ α)
  | parallel (children : List (Script σ α)) (join : List α → α)

namespace Script

variable {σ α : Type}

def result? : Script σ α → Option α
  | task t => t.result?
  | _ => none

mutual

/-- Lets everything that can go on do so once. -/
def poll : Script σ α → σ → σ × Script σ α
  | task t, s =>
    match t.run s with
    | (s, t) => (s, task t)
  | andThen first next, s =>
    match poll first s with
    | (s, .task (.done a)) => poll (next a) s
    | (s, first) => (s, andThen first next)
  | parallel children join, s =>
    match pollAll children s with
    | (s, children) =>
      match children.mapM result? with
      | some results => (s, .task (.done (join results)))
      | none => (s, parallel children join)

def pollAll : List (Script σ α) → σ → σ × List (Script σ α)
  | [], s => (s, [])
  | c :: cs, s =>
    match poll c s with
    | (s, c) =>
      match pollAll cs s with
      | (s, cs) => (s, c :: cs)

end

mutual

def isReady (s : σ) : Script σ α → Bool
  | task t => t.isReady s
  | andThen first _ => isReady s first
  | parallel children _ => anyReady s children

/-- Whether some script that is not finished can go on. -/
def anyReady (s : σ) : List (Script σ α) → Bool
  | [] => false
  | c :: cs => (c.result?.isNone && isReady s c) || anyReady s cs

end

mutual

def wake? : Script σ α → Option Nat
  | task t => t.wake?
  | andThen first _ => wake? first
  | parallel children _ => earliest children

def earliest : List (Script σ α) → Option Nat
  | [] => none
  | c :: cs => Task.earlier (wake? c) (earliest cs)

end

/-- One after another; the results are joined in the end. -/
def sequence (join : List α → α) : List (Script σ α) → List α → Script σ α
  | [], results => task (.done (join results.reverse))
  | s :: rest, results => andThen s fun a => sequence join rest (a :: results)

end Script

end ScreenFlow
