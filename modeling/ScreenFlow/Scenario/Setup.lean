import ScreenFlow.Json.Reader
import ScreenFlow.Scenario.Forms
import ScreenFlow.Simulation.Machine
import ScreenFlow.Simulation.Observing
import ScreenFlow.Simulation.Wiring

/-!
# Worlds from descriptions

What a description leaves out has its usual setting. The values that the shared store is to hold are
written first; then the parts are added, one by one or assembled from a configuration.
-/

namespace ScreenFlow.Scenario

open Simulation

/-- Why a world cannot be built. -/
inductive SetupError where
  /-- A value is not of its type. -/
  | unreadable
  | config (e : ConfigError)
  | dispatcher (f : Fault)
deriving Repr

/-! ### Settings -/

def executeSettingsOf (v : Json) : Option ExecuteSettings := do
  let d : ExecuteSettings := {}
  return {
    retry := ← v.typedAt "retry" d.retry RetryPolicy.decode
    requestTimeout := (v.natAt? "requestTimeoutMs").getD d.requestTimeout
    loginPath := (v.textAt? "loginPath").getD d.loginPath
    cacheReads := v.flagAt "cacheReads" d.cacheReads
    reconnectBase := (v.natAt? "reconnectBaseMs").getD d.reconnectBase
    reconnectMax := (v.natAt? "reconnectMaxMs").getD d.reconnectMax
    maxReconnects := v.natAt? "maxReconnects"
    ackTimeout := (v.natAt? "ackTimeoutMs").getD d.ackTimeout }

def authSettingsOf (v : Json) : Option AuthSettings := do
  let d : AuthSettings := {}
  return {
    backend := ← v.typedAt "storage" d.backend StorageBackend.decode
    storageKey := (v.textAt? "storageKey").getD d.storageKey
    tokenEndpoint := v.textAt? "tokenEndpoint"
    profileEndpoint := v.textAt? "profileEndpoint"
    refreshInterval := (v.natAt? "refreshIntervalMs").getD d.refreshInterval
    expiryMargin := (v.natAt? "expiryMarginMs").getD d.expiryMargin
    defaultLifetime := (v.natAt? "defaultLifetimeMs").getD d.defaultLifetime
    requiresAuth := v.flagAt "requiresAuth" d.requiresAuth
    loginPath := (v.textAt? "loginPath").getD d.loginPath }

def offlineSettingsOf (v : Json) : OfflineSettings :=
  let d : OfflineSettings := {}
  { enabled := v.flagAt "enabled" d.enabled
    queueKey := (v.textAt? "queueKey").getD d.queueKey
    cachePrefix := (v.textAt? "cachePrefix").getD d.cachePrefix
    throttle := (v.natAt? "throttleMs").getD d.throttle
    replayOnReconnect := v.flagAt "replayOnReconnect" d.replayOnReconnect
    syncTag := (v.textAt? "syncTag").getD d.syncTag }

def dispatchSettingsOf (v : Json) : DispatchSettings :=
  let d : DispatchSettings := {}
  { maxDepth := (v.natAt? "maxDepth").getD d.maxDepth
    postLoginRedirect := v.textAt? "postLoginRedirect"
    postLogoutRedirect := v.textAt? "postLogoutRedirect"
    errorToast := v.flagAt "errorToast" d.errorToast }

def defaultsOf (v : Json) : Option Defaults := do
  return {
    baseUrl := v.textAt? "baseUrl"
    headers := v.textFieldsAt "headers"
    endpointAuth := ← (v.fieldsAt "endpointAuth").mapM fun f => do
      return (f.1, ← Credential.decode f.2)
    injectSession := v.flagAt "injectSessionToken" false
    timeout := v.natAt? "defaultTimeoutMs"
    retry := ← v.typedAt? "defaultRetry" RetryPolicy.decode }

def translatorOf (v : Json) : Template.Translator := fun key =>
  ((v.textFieldsAt "translations").find? (·.1 == key)).map (·.2)

/-! ### Prepared answers -/

def tokensOf (v : Json) : Tokens :=
  { token := v.textAt? "token"
    refreshes := (v.itemsAt "refreshes").map fun r =>
      match r.get? "err" with
      | some e => .error (faultOf e)
      | none => .ok (r.textAt "ok") }

def routeAnswerOf (v : Json) : RouteAnswer :=
  match v, v.get? "fail" with
  | .str _, _ => .hang
  | _, some f => .fail (faultOf f)
  | _, none => .respond (replyOf v)

/-- Adds the answers of a described route. -/
def addRoute (rs : Routes) (v : Json) : Option Routes := do
  let method ← v.typedAt? "method" Method.decode
  return (v.itemsAt "replies").foldl
    (fun rs a => rs.add method (v.textAt "url") (routeAnswerOf a)) rs

def preparedOf (v : Json) : Prepared :=
  match v.textAt? "pick" with
  | some p => .pick p
  | none => .answer (eitherOf v)

def replayAnswerOf (v : Json) : Option ReplayAnswer := do
  return {
    takes := v.natAt "sleepMs"
    enqueues := ← v.typedAt? "enqueue" OfflineEvent.decode
    fault := (v.get? "err").map faultOf }

/-- Who replays: the dispatcher, unless something is described or nobody shall. -/
def replayerOf (v : Json) : Option Replayer :=
  match v.get? "replayer" with
  | none => some .dispatcher
  | some (.obj fs) => do
    return .prepared (← fs.mapM fun f => do
      return (f.1, ← ((f.2.items?).getD []).mapM replayAnswerOf))
  | some _ => some .missing

def substitutesOf (v : Json) : Option (List (ActionKind × Substitute)) :=
  (v.fieldsAt "strategies").mapM fun f => do
    return (← ActionKind.decode (.str f.1), ⟨f.2.natAt "sleepMs", preparedOf f.2⟩)

def devicesOf (v : Json) : Option (Option (List (ActionKind × Except Fault Json))) :=
  match v.get? "devices" with
  | some (.obj fs) => do
    return some (← fs.mapM fun f => do return (← ActionKind.decode (.str f.1), eitherOf f.2))
  | _ => some none

def scriptsOf (v : Json) : Option (List (String × Prepared)) :=
  ((v.get? "scripts").bind Json.fields?).map fun fs => fs.map fun f => (f.1, preparedOf f.2)

/-! ### The world -/

/-- The file of a store, in a folder that is not there at first. -/
def storeFile : FileName := .ofString "data/store.json"

/-- A file that cannot be, since something else than a folder is above it. -/
def brokenFile : FileName := .ofString "/dev/null/store.json"

/-- The stores and surroundings of a world, without its parts. -/
def surroundingsOf (v : Json) : Option World := do
  let w : World := {
    state := .ofJson (v.at_ "state")
    routes := ← (v.itemsAt "routes").foldlM addRoute []
    latency := v.natAt "transportDelayMs"
    screen := ← v.typedAt "screen" {} Screen.decode
    devices := ← devicesOf v
    scripts := scriptsOf v }
  match v.textAt "store" with
  | "file" =>
    let w := w.withFile storeFile
    return ((v.get? "fileContents").map bytesOf).elim w w.overwriteStore
  | "broken" => return w.withFile brokenFile
  | _ => return w

/-- Writes the values that the shared store is to hold. -/
def storeAll : List (String × Json) → Task World Unit
  | [] => return
  | (key, value) :: rest => do
    let _ ← askStore .shared (.set key (value.str?.getD value.render) none)
    storeAll rest

def addSession (w : World) (v : Json) : Option World :=
  match v.present? "auth" with
  | none => some w
  | some a => do
    let settings ← authSettingsOf a
    let (persistent, w) :=
      match a.textAt "persistent" with
      | "missing" | "unavailable" => (false, w)
      | _ => w.keepsSession settings.backend
    return w.withSession {
      settings
      persistent
      connected := a.flagAt "transport" true
      hosted := a.flagAt "host" true }

def addQueue (w : World) (v : Json) : World :=
  match v.present? "offline" with
  | none => w
  | some o => w.withQueue (offlineSettingsOf o) .missing

/-- Adds the parts that are described one by one. -/
def addParts (w : World) (v : Json) : Except SetupError World := do
  let readable {α : Type} (a : Option α) : Except SetupError α := a.elim (.error .unreadable) .ok
  let w := { w with tokens := (v.present? "tokens").map tokensOf }
  let w := addQueue (← readable (addSession w v)) v
  let w := w.withExecutor (← readable (executeSettingsOf (v.at_ "executor")))
    (v.flagAt "executorHost" true)
  let sources ← readable (v.typedItemsAt "sources" DataSource.decode)
  let w ← (w.withDispatcher (dispatchSettingsOf (v.at_ "dispatcher")) (.ofList sources)
    (← readable (defaultsOf (v.at_ "global"))) (translatorOf v) (v.flagAt "subscriptions" true)
    (← readable (substitutesOf v))).mapError .dispatcher
  match ← readable (replayerOf v) with
  | .dispatcher => return w.installReplayer.2
  | r => return w.modifyQueue ({ · with replayer := r })

/-- Runs a task before the first step. -/
def prepare (w : World) (t : Task World Unit) : Machine :=
  (Machine.run Machine.fuel { world := w } (.task t)).1

/-- The world of a description, ready for the first step. -/
def setUp (v : Json) : Except SetupError Machine := do
  match surroundingsOf v with
  | none => throw .unreadable
  | some w =>
    let w := (prepare w (storeAll (v.fieldsAt "stored"))).world.observeChanges.2
    match v.textAt? "runtime" with
    | none => return { world := ← addParts w v }
    | some toml =>
      let c ← (Config.ofText toml).mapError .config
      let w ← (w.assemble c (translatorOf v)).mapError .dispatcher
      return prepare w (startUp (v.flagAt "background" false))

end ScreenFlow.Scenario
