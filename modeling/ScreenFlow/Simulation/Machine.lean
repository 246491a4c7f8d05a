import ScreenFlow.Process.Script
import ScreenFlow.Simulation.Jobs

/-!
# Running a world

One script is in the foreground; jobs go on whenever it waits, each as far as it can, in the order in
which they were started. Time jumps to the next moment at which something can go on, and only when
nothing else can. A run is bounded by fuel, because a world need not come to rest.
-/

namespace ScreenFlow.Simulation

/-- A job in the middle of a round. -/
structure Running where
  number : Nat
  task : Task World (Option Job)

structure Machine where
  world : World := {}
  jobs : List Running := []

namespace Machine

/-- Lets jobs that were started join the others. -/
def adopt (m : Machine) : Machine where
  world := { m.world with started := [] }
  jobs := m.jobs ++ m.world.started.map fun s => ⟨s.1, s.2.round⟩

/-- Runs a job round by round until it waits or ends. -/
def advance : Nat → World → Running → World × Option Running
  | 0, w, r => (w, some r)
  | fuel + 1, w, r =>
    match r.task.run w with
    | (w, .done none) => ({ w with finished := w.finished ++ [r.number] }, none)
    | (w, .done (some j)) => advance fuel w { r with task := j.round }
    | (w, t) => (w, some { r with task := t })

/-- Gives every job one turn. -/
def turns (fuel : Nat) : List Running → World → World × List Running
  | [], w => (w, [])
  | r :: rs, w =>
    let (w, r) := advance fuel w r
    let (w, rs) := turns fuel rs w
    (w, r.toList ++ rs)

def isBusy (m : Machine) : Bool :=
  !m.world.started.isEmpty || m.jobs.any fun r => r.task.isReady m.world

/-- Gives turns until every job waits. -/
def settle : Nat → Machine → Machine
  | 0, m => m
  | fuel + 1, m =>
    if m.isBusy then
      let m := m.adopt
      let (world, jobs) := turns fuel m.jobs m.world
      settle fuel { world, jobs }
    else m

/-- The earliest time at which the script or a job can go on. -/
def wake? {α : Type} (m : Machine) (s : Script World α) : Option Nat :=
  (m.jobs.map (·.task.wake?)).foldl Task.earlier s.wake?

/-- Rests, and lets time pass until then. -/
def restUntil (m : Machine) (time : Nat) : Machine :=
  { m with world := { m.world with time := max m.world.time time, rests := m.world.rests + 1 } }

/-- Runs a script; without a result if it can never go on. In the end jobs still do what they can
without time passing. -/
def run {α : Type} : Nat → Machine → Script World α → Machine × Option α
  | 0, m, _ => (m, none)
  | fuel + 1, m, s =>
    let (world, s) := s.poll m.world
    let m := settle fuel { m with world }
    match s.result?, m.wake? s with
    | some a, wake =>
      if wake.any (· ≤ m.world.time) then run fuel (m.restUntil m.world.time) s else (m, some a)
    | none, wake =>
      if s.isReady m.world then run fuel m s
      else
        match wake with
        | some time => run fuel (m.restUntil time) s
        | none => (m, none)

/-- Enough for every world that comes to rest in a reasonable time. -/
def fuel : Nat := 10000000

end Machine

end ScreenFlow.Simulation
