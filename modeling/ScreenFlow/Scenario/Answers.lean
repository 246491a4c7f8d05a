import ScreenFlow.Scenario.Forms
import ScreenFlow.Simulation.Observing

/-!
# Forms of results

What steps answer, and what has happened meanwhile. A failure names its kind; where it would end an
action, the fault that the action would end with stands beside it.
-/

namespace ScreenFlow.Scenario

open Simulation

/-! ### Failures -/

def failure (kind : String) : Json := .obj [("error", .str kind)]

/-- A value in a description is not of its type. -/
def unreadable : Json := failure "Decode"

/-- The step is about a part that the world does not have. -/
def missing : Json := failure "Missing"

def failureForm (kind message : String) (action : Option Fault) : Json :=
  .ofFields ([("error", .str kind), ("message", .str message)] ++ field "action" faultForm action)

def storeErrorKind : StoreError → String
  | .unavailable _ => "Unavailable"
  | .serialization _ => "Serialization"
  | .io _ => "Io"
  | .backend _ => "Backend"

def storeErrorForm (e : StoreError) (action : Bool) : Json :=
  failureForm (storeErrorKind e) e.message (if action then some e.toFault else none)

def offlineErrorKind : OfflineError → String
  | .store e => storeErrorKind e
  | .corrupt _ => "Corrupt"
  | .noExecutor => "NoExecutor"

def offlineErrorForm (e : OfflineError) (action : Bool) : Json :=
  failureForm (offlineErrorKind e) e.message (if action then some e.toFault else none)

def authErrorKind : AuthError → String
  | .notLoggedIn => "NotLoggedIn"
  | .noRefreshToken => "NoRefreshToken"
  | .noTokenEndpoint => "NoTokenEndpoint"
  | .refresh _ => "Refresh"
  | .unauthorized => "Unauthorized"
  | .request _ => "Request"
  | .malformed _ => "Malformed"
  | .store _ => "Store"

def authErrorForm (e : AuthError) : Json :=
  failureForm (authErrorKind e) e.message (some e.toFault)

/-- The screen has no handler of this name. -/
def noHandler (name : String) : Json :=
  failureForm "HandlerNotFound" ("handler not found: " ++ name)
    (some (.notFound s!"handler '{name}'"))

/-! ### Results -/

/-- The plain success. -/
def plain {α : Type} (_ : α) : Json := .null

def textForm (s : Option String) : Json := .ofOption .str s

def replayReportForm (r : Option ReplayReport) : Json :=
  .ofOption ReplayReport.toJson r

def increasing : List OfflineEvent → Bool
  | a :: b :: rest => a.createdAt < b.createdAt && increasing (b :: rest)
  | _ => true

def pendingForm (es : List OfflineEvent) : Json :=
  .obj [("events", .arr (es.map OfflineEvent.toJson)), ("increasing", .bool (increasing es))]

def onlineForm (q : QueuePart) (used : Bool) : Json :=
  .ofFields [("online", .bool q.online), ("watched", .bool q.online),
    ("replaying", .bool q.running.isSome), ("enabled", .bool q.settings.enabled),
    ("executor", .bool used)]

def sessionForm (s : SessionPart) (now : Int) : Json :=
  .ofFields [("session", .ofOption StoredAuth.toJson s.current),
    ("loggedIn", .bool (Auth.isLive s.auth.settings now s.current)),
    ("needsRefresh", .bool (Auth.needsRefresh s.auth.settings now s.current)),
    ("canRefresh", .bool (s.auth.canRefresh s.current)),
    ("accessToken", textForm (s.current.map (·.token))),
    ("profile", .ofOption id (Auth.profileOf s.current s.profile)),
    ("backend", s.auth.storage.backend.toJson), ("key", .str s.auth.storage.key)]

/-- A message, or how many were missed. -/
def receivedForm {α : Type} (f : α → Json) : Broadcast.Received α → Json
  | .message a => f a
  | .lagged n => .obj [("lagged", .nat n)]
  | .nothing => .null

def changeForm (c : StoreChange) : Json := .obj [("key", .str c.key), ("value", textForm c.value)]

def connectionForm (n : Nat) (c : Connection) : Json :=
  .ofFields [("server", .nat n), ("url", .str c.url), ("protocol", textForm c.protocol),
    ("headers", headersForm c.headers)]

/-! ### Occurrences -/

def hostCallForm : HostCall → Json
  | .toast m v => .obj [("toast", .str m), ("variant", v.toJson)]
  | .navigate href replace => .obj [("navigate", .str href), ("replace", .bool replace)]
  | .openModal id => .obj [("openModal", .str id)]
  | .closeModal id => .obj [("closeModal", .str id)]
  | .download filename type data =>
    .ofFields [("download", .str filename), ("contentType", .str type), ("data", bytesForm data)]

def authEventForm : AuthEvent → Json
  | .loggedIn e => .ofFields [("type", .str "loggedIn"), ("expiresAt", .ofOption .int e)]
  | .refreshed e => .ofFields [("type", .str "refreshed"), ("expiresAt", .ofOption .int e)]
  | .loggedOut => .obj [("type", .str "loggedOut")]

def progressForm (p : ReplayProgress) : Json := .arr [.nat p.completed, .nat p.total]

def pairForm (first second : String) (p : Json × Json) : Json := .obj [(first, p.1), (second, p.2)]

/-- A list that is only there if something is in it. -/
def nonempty {α : Type} (key : String) (f : α → Json) (as : List α) : List (String × Json) :=
  if as.isEmpty then [] else [(key, .arr (as.map f))]

/-- What has happened, and the state if it was written to. -/
def occurrencesForm (o : Occurrences) (state : Json) : List (String × Json) :=
  let j := o.journal
  nonempty "calls" hostCallForm j.host ++ nonempty "requests" requestForm j.requests ++
  nonempty "telemetry" (pairForm "name" "properties") (j.telemetry.map fun e => (.str e.1, e.2)) ++
  nonempty "devices" (pairForm "kind" "params") (j.devices.map fun e => (e.1.toJson, e.2)) ++
  nonempty "patches" (pairForm "path" "value") (j.patches.map fun e => (.str e.1, e.2)) ++
  (if j.patches.isEmpty then [] else [("state", state)]) ++
  nonempty "authEvents" authEventForm o.authEvents ++
  nonempty "progress" (receivedForm progressForm) o.progress ++
  nonempty "replayed" .str j.replayed ++ nonempty "syncTags" .str j.syncs

end ScreenFlow.Scenario
