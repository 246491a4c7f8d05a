import ScreenFlow.Auth.Record
import ScreenFlow.Dispatch.Basic
import ScreenFlow.Execute.Settings
import ScreenFlow.Offline.Settings
import ScreenFlow.Toml.Document

/-!
# Configuration

One TOML document configures all parts. Every section and every field may be left out.
-/

namespace ScreenFlow

inductive ConfigError where
  /-- The file cannot be read. -/
  | unreadable
  /-- The text is not TOML, or a field is not of its kind. -/
  | malformed
  | unknownBackend (name : String)
  | missingStorePath
  | invalid (field reason : String)
deriving DecidableEq, Repr, Inhabited

namespace ConfigError

def message : ConfigError → String
  | unreadable => "failed to read the configuration"
  | malformed => "invalid configuration"
  | unknownBackend name => s!"unknown store backend '{name}', expected \"memory\" or \"file\""
  | missingStorePath => "the file store backend requires store.path"
  | invalid field reason => s!"invalid {field}: {reason}"

end ConfigError

namespace Config

structure Runtime where
  baseUrl : Option String := none
  requestTimeout : Duration := 30000
  loginPath : String := "/login"
  postLoginRedirect : Option String := none
  postLogoutRedirect : Option String := none
  maxDepth : Nat := 8
  injectSession : Bool := false
  errorToast : Bool := true
  cacheReads : Bool := true
deriving DecidableEq, Repr, Inhabited

def Runtime.decode : Decoder Runtime := .record do
  return {
    baseUrl := ← .optional "base_url" .string
    requestTimeout := ← .withDefault ["request_timeout_ms"] 30000 (.natBelow 64)
    loginPath := ← .withDefault ["login_path"] "/login" .string
    postLoginRedirect := ← .optional "post_login_redirect" .string
    postLogoutRedirect := ← .optional "post_logout_redirect" .string
    maxDepth := ← .withDefault ["max_depth"] 8 (.natBelow 64)
    injectSession := ← .withDefault ["inject_session_token"] false .bool
    errorToast := ← .withDefault ["error_toast"] true .bool
    cacheReads := ← .withDefault ["cache_reads"] true .bool }

def decodeRetry : Decoder RetryPolicy := .record do
  return {
    attempts := ← .withDefault ["attempts"] 3 (.natBelow 32)
    delayMs := ← .withDefault ["delay_ms"] 1000 (.natBelow 64)
    strategy := ← .withDefault ["strategy"] .exponential Backoff.decode }

def decodeOffline : Decoder OfflineSettings := .record do
  let standard : OfflineSettings := {}
  return { standard with
    enabled := ← .withDefault ["enabled"] standard.enabled .bool
    queueKey := ← .withDefault ["queue_key"] standard.queueKey .string
    cachePrefix := ← .withDefault ["cache_prefix"] standard.cachePrefix .string
    throttle := ← .withDefault ["throttle_ms"] standard.throttle (.natBelow 64)
    replayOnReconnect := ← .withDefault ["replay_on_reconnect"] standard.replayOnReconnect .bool }

/-- A duration in whole seconds. -/
def seconds : Decoder Duration := fun v => (Decoder.natBelow 64 v).map (· * 1000)

def decodeAuth : Decoder AuthSettings := .record do
  let standard : AuthSettings := {}
  return { standard with
    backend := ← .withDefault ["storage"] standard.backend StorageBackend.decode
    storageKey := ← .withDefault ["storage_key"] standard.storageKey .string
    tokenEndpoint := ← .optional "token_endpoint" .string
    profileEndpoint := ← .optional "profile_endpoint" .string
    refreshInterval := ← .withDefault ["refresh_interval_secs"] standard.refreshInterval seconds
    defaultLifetime := ← .withDefault ["default_lifetime_secs"] standard.defaultLifetime seconds
    requiresAuth := ← .withDefault ["requires_auth"] standard.requiresAuth .bool }

/-- Where the offline queue and a persistent session are kept. -/
structure Store where
  backend : String := "memory"
  path : Option String := none
deriving DecidableEq, Repr, Inhabited

def Store.decode : Decoder Store := .record do
  return {
    backend := ← .withDefault ["backend"] "memory" .string
    path := ← .optional "path" .string }

structure Logging where
  level : String := "info"
  json : Bool := false
deriving DecidableEq, Repr, Inhabited

def Logging.decode : Decoder Logging := .record do
  return {
    level := ← .withDefault ["level"] "info" .string
    json := ← .withDefault ["json"] false .bool }

end Config

structure Config where
  runtime : Config.Runtime := {}
  retry : RetryPolicy := {}
  offline : OfflineSettings := {}
  auth : AuthSettings := {}
  store : Config.Store := {}
  logging : Config.Logging := {}
  sources : List DataSource := []
  /-- Credentials by URL prefix, for sources that declare none. -/
  endpointAuth : List (String × Credential) := []
  /-- Headers of every request. -/
  headers : List (String × String) := []
deriving Repr, Inhabited

namespace Config

def decode : Decoder Config := .record do
  return {
    runtime := ← .withDefault ["runtime"] {} Runtime.decode
    retry := ← .withDefault ["retry"] {} decodeRetry
    offline := ← .withDefault ["offline"] {} decodeOffline
    auth := ← .withDefault ["auth"] {} decodeAuth
    store := ← .withDefault ["store"] {} Store.decode
    logging := ← .withDefault ["logging"] {} Logging.decode
    sources := ← .withDefault ["data_sources"] [] (.list DataSource.decode)
    endpointAuth := ← .withDefault ["endpoint_auth"] [] (.map Credential.decode)
    headers := ← .withDefault ["headers"] [] (.map .string) }

/-- Finds the first value that does not make sense. -/
def check (c : Config) : Except ConfigError Unit := do
  match c.store.backend, c.store.path with
  | "memory", _ => pure ()
  | "file", none => throw .missingStorePath
  | "file", some _ => pure ()
  | other, _ => throw (.unknownBackend other)
  let positive (field : String) (n : Nat) : Except ConfigError Unit :=
    if n = 0 then .error (.invalid field "must be at least 1") else .ok ()
  positive "retry.attempts" c.retry.attempts
  positive "runtime.max_depth" c.runtime.maxDepth
  positive "auth.refresh_interval_secs" c.auth.refreshInterval

def ofText (text : String) : Except ConfigError Config :=
  match (Toml.ofText? text).bind fun v => decode (.written .toml v) with
  | none => .error .malformed
  | some c => c.check.map fun _ => c

/-! ### The settings of the parts -/

def executeSettings (c : Config) : ExecuteSettings :=
  { retry := c.retry, requestTimeout := c.runtime.requestTimeout, loginPath := c.runtime.loginPath,
    cacheReads := c.runtime.cacheReads }

def authSettings (c : Config) : AuthSettings := { c.auth with loginPath := c.runtime.loginPath }

def dispatchSettings (c : Config) : DispatchSettings :=
  { maxDepth := c.runtime.maxDepth, postLoginRedirect := c.runtime.postLoginRedirect,
    postLogoutRedirect := c.runtime.postLogoutRedirect, errorToast := c.runtime.errorToast }

def defaults (c : Config) : Defaults :=
  { baseUrl := c.runtime.baseUrl, headers := c.headers, endpointAuth := c.endpointAuth,
    injectSession := c.runtime.injectSession, timeout := some c.runtime.requestTimeout,
    retry := some c.retry }

def registry (c : Config) : Registry := .ofList c.sources

end Config

end ScreenFlow
