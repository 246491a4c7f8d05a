import ScreenFlow.Disk
import ScreenFlow.Fault

/-!
# Downloads

A download is kept in a folder as a file. Only the last part of its name counts, so that it cannot leave
the folder.
-/

namespace ScreenFlow.Download

/-- The name of the file that a download becomes. -/
def fileName (filename : String) : Except Fault String :=
  match (FileName.ofString filename).last? with
  | some name => .ok name
  | none => .error (.validation s!"invalid download filename '{filename}'")

/-- Keeps a download in a folder that is there. -/
def save (d : Disk) (folder : FileName) (filename : String) (data : Bytes) :
    Except Fault Unit × Disk :=
  match fileName filename with
  | .error f => (.error f, d)
  | .ok name =>
    let (result, d) := d.perform (Disk.write (folder.child name) data)
    (result.mapError fun f => .storage f.message, d)

end ScreenFlow.Download
