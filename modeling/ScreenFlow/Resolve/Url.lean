import ScreenFlow.Fault
import ScreenFlow.Resolve.Registry
import ScreenFlow.Template
import ScreenFlow.Text.Percent

/-!
# URLs of requests

A path is put behind its base and the query parameters are added to what is there.
-/

namespace ScreenFlow.Url

def schemes : List String := ["http://", "https://", "ws://", "wss://"]

def isAbsolute (url : String) : Bool := schemes.any (Text.startsWith url)

/-- Base and path with one slash between them; an empty side adds nothing. -/
def join (base path : String) : String :=
  if base.isEmpty then path
  else if path.isEmpty then base
  else String.ofList ((base.toList.reverse.dropWhile (· == '/')).reverse ++
    '/' :: path.toList.dropWhile (· == '/'))

/-- The query pairs of one resolved parameter: none for null, one for each element of an array. -/
def pairs (key : String) : Json → List (String × String)
  | .null => []
  | .arr items => (items.filter (!·.isNull)).map fun v => (key, v.inlineText)
  | v => [(key, v.inlineText)]

def addQuery (url : String) (ps : List (String × String)) : String :=
  if ps.isEmpty then url
  else url ++ (if url.toList.contains '?' then "&" else "?") ++ FormFields.encode ps

/-- The text before the first `?`, and the text after it unless that is empty. -/
def splitQuery (url : String) : String × Option String :=
  match Text.splitOnce '?' url with
  | some (base, query) => (base, if query.isEmpty then none else some query)
  | none => (url, none)

/-- The URL of a source before its query parameters are added. -/
def target (d : DataSource) (g : Defaults) (fill : String → String) : String :=
  let path := fill d.path
  if isAbsolute path then path else join (((d.baseUrl.map fill).or g.baseUrl).getD "") path

def queryPairs (d : DataSource) (fill : Json → Json) : List (String × String) :=
  d.queryParams.flatMap fun p => pairs p.1 (fill p.2)

def build (d : DataSource) (g : Defaults) (scope : Json) (tr : Template.Translator) :
    Except Fault String :=
  let url := target d g (Template.resolveText scope tr)
  if url.isEmpty then .error (.validation s!"data source '{d.id}' has no URL")
  else .ok (addQuery url (queryPairs d (Template.resolve scope tr)))

end ScreenFlow.Url
