import ScreenFlow.DataSource
import ScreenFlow.Fault
import ScreenFlow.Text.Chars

/-!
# Registries of data sources

Data sources by id, and the defaults of all requests. A screen's own sources come before the
registered ones.
-/

namespace ScreenFlow

/-- Registered sources, the latest one of an id alone. -/
structure Registry where
  sources : List DataSource := []
deriving DecidableEq, Repr, Inhabited

namespace Registry

/-- Registers a source in place of any other with its id. -/
def register (r : Registry) (d : DataSource) : Registry :=
  ⟨r.sources.filter (·.id != d.id) ++ [d]⟩

def ofList (ds : List DataSource) : Registry := ds.foldl register {}

def get? (r : Registry) (id : String) : Option DataSource := r.sources.find? (·.id == id)

/-- Looks an id up, among `own` sources first. -/
def find (r : Registry) (own : List DataSource) (id : String) : Except Fault DataSource :=
  match (own.find? (·.id == id)).or (r.get? id) with
  | some d => .ok d
  | none => .error (.notFound s!"data source '{id}'")

/-- All registered ids in ascending order. -/
def ids (r : Registry) : List String := (r.sources.map (·.id)).mergeSort (fun a b => decide (a ≤ b))

end Registry

/-- What goes into every request that does not say otherwise. -/
structure Defaults where
  /-- Stands before relative paths of sources that have no base of their own. -/
  baseUrl : Option String := none
  headers : List (String × String) := []
  /-- Credentials by URL prefix. -/
  endpointAuth : List (String × Credential) := []
  /-- Whether the session token goes with requests that declare no credential. -/
  injectSession : Bool := false
  timeout : Option Duration := none
  retry : Option RetryPolicy := none
deriving DecidableEq, Repr, Inhabited

namespace Defaults

/-- The later of two entries unless the earlier one's prefix is longer. -/
def longer (a b : String × Credential) : String × Credential :=
  if b.1.utf8ByteSize < a.1.utf8ByteSize then a else b

/-- The credential registered for the longest prefix of the URL. -/
def endpointAuth? (d : Defaults) (url : String) : Option Credential :=
  match d.endpointAuth.filter fun e => Text.startsWith url e.1 with
  | [] => none
  | e :: es => some (es.foldl longer e).2

end Defaults

end ScreenFlow
