import ScreenFlow.Text.Utf8
import ScreenFlow.Text.Chars

/-!
# File names

Names of files as paths with slashes, and what keeps a file from being used.
-/

namespace ScreenFlow

/-- Why a file cannot be read or written. -/
inductive FileFault where
  | missing
  | exists_
  | notFolder
  | isFolder
  | busy
  | nameTooLong
  /-- The name holds a NUL character. -/
  | nameWithNul
  | other (reason : String)
deriving DecidableEq, Repr, Inhabited

/-- The wording of the operating system. -/
def FileFault.message : FileFault → String
  | missing => "No such file or directory (os error 2)"
  | exists_ => "File exists (os error 17)"
  | notFolder => "Not a directory (os error 20)"
  | isFolder => "Is a directory (os error 21)"
  | busy => "Device or resource busy (os error 16)"
  | nameTooLong => "File name too long (os error 36)"
  | nameWithNul => "file name contained an unexpected NUL byte"
  | other reason => reason

/-- A path: what stands between its slashes, and whether there is a slash at its begin or at its end. -/
structure FileName where
  absolute : Bool := false
  parts : List String := []
  slash : Bool := false
deriving DecidableEq, Repr, Inhabited

namespace FileName

def ofString (path : String) : FileName where
  absolute := Text.startsWith path "/"
  parts := ((Text.splitChars '/' path.toList).map String.ofList).filter (· != "")
  slash := Text.endsWith path "/"

instance : ToString FileName where
  toString f := (if f.absolute then "/" else "") ++ String.intercalate "/" f.parts ++
    (if f.slash && !f.parts.isEmpty then "/" else "")

/-- Whether the path says nothing at all. -/
def isEmpty (f : FileName) : Bool := !f.absolute && f.parts.isEmpty

/-- The parts without those that stay where they are. -/
def steps (f : FileName) : List String := f.parts.filter (· != ".")

/-- The last step, unless it leads upwards. -/
def last? (f : FileName) : Option String := f.steps.getLast?.filter (· != "..")

/-- The folder in which the path ends. -/
def parent (f : FileName) : FileName := { absolute := f.absolute, parts := f.steps.dropLast }

/-- The file of the name in a folder. -/
def child (folder : FileName) (name : String) : FileName :=
  { folder with parts := folder.parts ++ [name], slash := false }

/-- The part of a name before its last dot, unless the name begins with that dot. -/
def stem (name : String) : String :=
  match Text.splitAt? ['.'] name.toList.reverse with
  | none | some (_, []) => name
  | some (_, before) => String.ofList before.reverse

/-- The name beside a file under which it is written first. -/
def draft (f : FileName) : FileName :=
  match f.last? with
  | some name => f.parent.child (stem name ++ ".tmp")
  | none => f

/-- Whether the path is no more than a root, or nothing at all, and thus ends in no folder. -/
def isBare (f : FileName) : Bool := f.isEmpty || (f.absolute && f.steps.isEmpty)

/-- How many bytes a part may have. -/
def maxPart : Nat := 255

/-- How many bytes a path may have. -/
def maxBytes : Nat := 4095

/-- What is wrong with a path before anything is looked for. -/
def check (f : FileName) : Except FileFault Unit :=
  if (toString f).toList.contains '\x00' then .error .nameWithNul
  else if f.isEmpty then .error .missing
  else if maxBytes < (Utf8.encode (toString f)).length then .error .nameTooLong
  else .ok ()

end FileName

end ScreenFlow
