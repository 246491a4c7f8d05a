import ScreenFlow.Dispatch.Basic
import ScreenFlow.Handler.Basic

/-!
# Results of actions

How a result is projected, where it is bound, and what a login can be recognised by.
-/

namespace ScreenFlow

namespace Result

/-- The mark of a request that waits in the queue instead of being answered. -/
def queuedKey : String := "queued"

def isQueued (v : Json) : Bool := v.get? queuedKey == some (.bool true)

/-- The result of a request that was queued under an id. -/
def queued (eventId : String) : Json := .obj [("eventId", .str eventId), (queuedKey, .bool true)]

/-- Picks values by path; what is not there becomes null. -/
def pick (paths : List (String × String)) (v : Json) : Json :=
  .obj (paths.map fun p => (p.1, (v.getPath? p.2).getD .null))

/-- What stands for the result when its mapping fails. -/
def unmapped (f : Fault) : Json :=
  .obj [("error", .str (Fault.transform f.message).message), ("ok", .bool false)]

/-! ### Ids in state paths -/

def idPlaceholder : List Char := ['{', 'i', 'd', '}']

/-- A value that can stand in a path. -/
def plainText? : Json → Option String
  | .str s => if s.isEmpty then none else some s
  | .num n => some n.render
  | _ => none

def idPaths : List String := ["event.id", "id", "node.id", "item.id"]

/-- The id that an event is about, or the one selected in the scope. -/
def itemId (event : Option Json) (scope : Json) : String :=
  let ofEvent := event.bind fun e =>
    (idPaths.findSome? fun p => (e.getPath? p).bind plainText?).or (plainText? e)
  (ofEvent.or ((scope.getPath? "selectedId").bind plainText?)).getD "unknown"

/-- Replaces every occurrence of a text; `fuel` bounds their number. -/
def replaceWithin : Nat → List Char → List Char → List Char → List Char
  | 0, _, _, cs => cs
  | fuel + 1, pat, new, cs =>
    match Text.splitAt? pat cs with
    | some (before, after) => before ++ new ++ replaceWithin fuel pat new after
    | none => cs

/-- The path with the id in its places. -/
def targetPath (path : String) (event : Option Json) (scope : Json) : String :=
  let id := (itemId event scope).toList
  String.ofList (replaceWithin path.length idPlaceholder id path.toList)

end Result

/-! ### Logins -/

/-- The tokens that a login gave. -/
structure LoginTokens where
  token : String
  refreshToken : Option String
  expiresIn : Option Duration
deriving DecidableEq, Repr

namespace LoginTokens

def firstText? (body : Json) (keys : List String) : Option String :=
  keys.findSome? fun k => (body.get? k).bind Json.str?

def ofBody? (body : Json) : Option LoginTokens :=
  (firstText? body ["token", "accessToken", "access_token"]).map fun token =>
    { token
      refreshToken := firstText? body ["refreshToken", "refresh_token"]
      expiresIn := (["expiresIn", "expires_in"].findSome? fun k =>
        (body.get? k).bind fun v => Decoder.natBelow 64 v).map (· * 1000) }

/-- The tokens in a result, or else in its envelope. -/
def ofResult? (v : Json) : Option LoginTokens := (ofBody? v).or ((v.get? "data").bind ofBody?)

end LoginTokens

/-- What a successful request means for the session. -/
inductive SessionEffect where
  | login
  | logout
  | none
deriving DecidableEq, Repr

namespace SessionEffect

/-- A logout is told by its mark or by the name of the data source, and comes before a login. -/
def ofAction (spec : ActionSpec) (sourceName : String) : SessionEffect :=
  if spec.isLogout || Text.contains sourceName "logout" then .logout
  else if spec.isLogin || Text.contains sourceName "login" || Text.contains sourceName "register" then
    .login
  else .none

end SessionEffect

namespace Dispatcher

/-- The name of the action's data source in lower case; empty if there is none. -/
def sourceName (d : Dispatcher) (i : Invocation) (spec : ActionSpec) : String :=
  match spec.dataSourceId with
  | some id =>
    match d.registry.find i.own id with
    | .ok source => Text.lower source.displayName
    | .error _ => ""
  | none => ""

end Dispatcher

end ScreenFlow
