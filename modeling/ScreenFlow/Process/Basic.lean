/-!
# Processes

A process is a computation that stops at questions to its surroundings and goes on with the answers.
What it may ask is its interface. Nothing happens between two questions that anyone else could see,
so a run of several processes is an order in which their questions are answered.
-/

namespace ScreenFlow

structure Interface where
  Ask : Type
  Answer : Ask → Type

inductive Process (I : Interface) (α : Type) : Type where
  | done (a : α)
  | ask (q : I.Ask) (next : I.Answer q → Process I α)

namespace Process

variable {I : Interface} {α β : Type}

def bind : Process I α → (α → Process I β) → Process I β
  | done a, k => k a
  | ask q next, k => ask q fun a => (next a).bind k

instance : Monad (Process I) where
  pure := done
  bind := bind

/-- Asks one question. -/
def call (q : I.Ask) : Process I (I.Answer q) := ask q done

/-- Lets the questions be answered in another monad. -/
def runIn {m : Type → Type} [Monad m] (answer : (q : I.Ask) → m (I.Answer q)) : Process I α → m α
  | done a => pure a
  | ask q next => answer q >>= fun a => (next a).runIn answer

@[simp] theorem done_bind (a : α) (k : α → Process I β) : (done a).bind k = k a := rfl

@[simp] theorem ask_bind (q : I.Ask) (next : I.Answer q → Process I α) (k : α → Process I β) :
    (ask q next).bind k = ask q fun a => (next a).bind k := rfl

theorem bind_done (p : Process I α) : p.bind done = p := by
  induction p with
  | done a => rfl
  | ask q next ih => simp [ih]

theorem bind_assoc {γ : Type} (p : Process I α) (k : α → Process I β) (l : β → Process I γ) :
    (p.bind k).bind l = p.bind fun a => (k a).bind l := by
  induction p with
  | done a => rfl
  | ask q next ih => simp [ih]

instance : LawfulMonad (Process I) := .mk' _
  (fun p => bind_done p)
  (fun _ _ => rfl)
  (fun p k l => bind_assoc p k l)

end Process

end ScreenFlow
