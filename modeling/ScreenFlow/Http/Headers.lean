import ScreenFlow.Text.Chars

/-!
# Header maps

Fields in ascending order of their spelling. Looking up, setting and removing ignore the case of
ASCII letters.
-/

namespace ScreenFlow

abbrev Headers := List (String × String)

namespace Headers

/-- The value of the first spelling of the name. -/
def find? (hs : Headers) (name : String) : Option String :=
  (List.find? (fun h => Text.sameName h.1 name) hs).map (·.2)

def has (hs : Headers) (name : String) : Bool := (hs.find? name).isSome

/-- Drops every spelling of the name. -/
def remove (hs : Headers) (name : String) : Headers :=
  hs.filter fun h => !Text.sameName h.1 name

/-- Puts one field in its place, beside other spellings of its name. -/
def insert (hs : Headers) (name value : String) : Headers :=
  hs.takeWhile (·.1 < name) ++ (name, value) :: (hs.dropWhile (·.1 < name)).dropWhile (·.1 == name)

/-- Replaces every spelling of the name by this one. -/
def set (hs : Headers) (name value : String) : Headers := (hs.remove name).insert name value

/-- Adds the field unless this very spelling is there. -/
def insertNew (hs : Headers) (name value : String) : Headers :=
  if hs.any (·.1 == name) then hs else hs.insert name value

end Headers

end ScreenFlow
