import ScreenFlow.Path

/-!
# Application state

One JSON object that handlers read and patch by path.
-/

namespace ScreenFlow

structure AppState where
  root : Json
deriving DecidableEq

namespace AppState

/-- Starts from an object; anything else counts as the empty one. -/
def ofJson (initial : Json) : AppState := ⟨if initial.isObject then initial else .empty⟩

def empty : AppState := ⟨.empty⟩

def get? (s : AppState) (path : String) : Option Json := s.root.getPath? path

/-- Writes a value; a write that lies too far out is dropped. -/
def set (s : AppState) (path : String) (value : Json) : AppState := ⟨(s.root.setPath path value).2⟩

end AppState

end ScreenFlow
