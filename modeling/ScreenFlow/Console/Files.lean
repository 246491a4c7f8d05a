import ScreenFlow.Disk
import ScreenFlow.Process.Basic

/-!
# Files around a console

What the console asks of the disk that it runs on. It takes over those parts of the disk as a value that
it can come to, works on that, and settles the differences in the end.
-/

namespace ScreenFlow

namespace Files

inductive Ask where
  | read (file : FileName)
  /-- The disk around some files, and the folders within a folder that takes new files. -/
  | survey (files : List FileName) (folder : FileName)
  /-- Lets the disk become another one. -/
  | settle (before after : Disk)

@[reducible] def Answer : Ask → Type
  | .read _ => Except FileFault Bytes
  | .survey .. => Disk
  | .settle .. => Unit

@[reducible] def interface : Interface := ⟨Ask, Answer⟩

abbrev Operation (α : Type) := Process interface α

def ask (q : Ask) : Operation (Answer q) := Process.call (I := interface) q

end Files

namespace Disk

def answer : (q : Files.Ask) → StateM Disk (Files.Answer q)
  | .read file => fun d => (d.read file, d)
  | .survey .. => fun d => (d, d)
  | .settle _ after => fun _ => ((), after)

/-- Runs an operation on a disk. -/
def follow {α : Type} (d : Disk) (p : Files.Operation α) : α × Disk := (p.runIn answer).run d

end Disk

end ScreenFlow
