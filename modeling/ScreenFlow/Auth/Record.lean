import ScreenFlow.Duration
import ScreenFlow.Json.Record

/-!
# Sessions

The persisted form of a session: its bearer token, the token that renews it, and its expiry in
milliseconds since the epoch; the places where it may be kept, and the settings of sessions.
-/

namespace ScreenFlow

structure StoredAuth where
  token : String
  refreshToken : Option String := none
  expiresAt : Option Int := none
deriving DecidableEq, Repr, Inhabited

namespace StoredAuth

/-- The time left, negative once the session has expired. -/
def remaining? (a : StoredAuth) (now : Int) : Option Int := a.expiresAt.map (· - now)

def decode : Decoder StoredAuth := .record do
  return {
    token := ← .required "token" .string
    refreshToken := ← .optional "refreshToken" .string
    expiresAt := ← .optional "expiresAt" .int64 }

def toJson (a : StoredAuth) : Json :=
  .obj (("token", .str a.token) :: (a.refreshToken.toList.map fun r => ("refreshToken", .str r)) ++
    a.expiresAt.toList.map fun e => ("expiresAt", .int e))

/-- What may be printed about a session; neither of its tokens is part of it. -/
def visibleText (a : StoredAuth) : List String := a.expiresAt.toList.map toString

end StoredAuth

/-- Where a session is kept. -/
inductive StorageBackend where
  | memory
  /-- A persistent store. -/
  | localStore
  /-- A percent-encoded record that expires with the token. -/
  | cookie
deriving DecidableEq, Repr, Inhabited

namespace StorageBackend

def all : List StorageBackend := [memory, localStore, cookie]

def name : StorageBackend → String
  | memory => "memory"
  | localStore => "local"
  | cookie => "cookie"

def decode : Decoder StorageBackend := .oneOf all name

def toJson (b : StorageBackend) : Json := .str b.name

end StorageBackend

structure AuthSettings where
  backend : StorageBackend := .memory
  /-- The key, or the name of the cookie, under which the session is stored. -/
  storageKey : String := "weft:auth"
  /-- Where a refresh token is exchanged for a new token. -/
  tokenEndpoint : Option String := none
  profileEndpoint : Option String := none
  /-- How often the remaining lifetime is looked at in the background. -/
  refreshInterval : Duration := 120000
  /-- A token counts as expired this long before it is. -/
  expiryMargin : Duration := 300000
  /-- The lifetime of a token of which nothing else is known. -/
  defaultLifetime : Duration := 3600000
  /-- Whether the user is sent to the login page when the session ends. -/
  requiresAuth : Bool := false
  loginPath : String := "/login"
deriving DecidableEq, Repr, Inhabited

end ScreenFlow
