import ScreenFlow.Auth.Record
import ScreenFlow.Store.Access
import ScreenFlow.Store.Entries
import ScreenFlow.Text.Percent

/-!
# The stored session

The one place where the record of a session stands, and what may fail around it. A cookie holds the
record percent-encoded and no longer than the token lives.
-/

namespace ScreenFlow

inductive AuthError where
  | notLoggedIn
  | noRefreshToken
  | noTokenEndpoint
  /-- The token endpoint gave no new token. -/
  | refresh (reason : String)
  /-- The server did not accept the token. -/
  | unauthorized
  | request (f : Fault)
  | malformed (reason : String)
  | store (e : StoreError)
deriving DecidableEq, Repr, Inhabited

namespace AuthError

def message : AuthError → String
  | notLoggedIn => "not logged in"
  | noRefreshToken => "no refresh token available"
  | noTokenEndpoint => "no token endpoint configured"
  | refresh s => "token refresh failed: " ++ s
  | unauthorized => "profile request rejected with 401"
  | request f => "request failed: " ++ f.message
  | malformed s => "malformed auth record: " ++ s
  | store e => e.message

def toFault (e : AuthError) : Fault :=
  match e with
  | .store s => s.toFault
  | .request f => f
  | .unauthorized => .network 401 e.message none
  | _ => .tokenRefresh e.message

end AuthError

structure AuthStorage where
  backend : StorageBackend := .memory
  key : String
deriving DecidableEq, Repr, Inhabited

namespace AuthStorage

/-- What is used in the end: without a persistent store that works the record lives in memory. -/
def choose (wanted : StorageBackend) (key : String) (available : Bool) : AuthStorage :=
  ⟨if available then wanted else .memory, key⟩

/-- The text that is stored. -/
def encode (s : AuthStorage) (a : StoredAuth) : String :=
  match s.backend with
  | .cookie => Percent.encode a.toJson.render
  | _ => a.toJson.render

/-- The record's text without the encoding of the place where it stands. -/
def plainText? (s : AuthStorage) (text : String) : Except AuthError String :=
  match s.backend with
  | .cookie =>
    (Percent.decode text).mapError fun e => .malformed e.message
  | _ => .ok text

def decode (s : AuthStorage) (text : String) : Except AuthError StoredAuth := do
  let plain ← s.plainText? text
  (Json.decodeText StoredAuth.decode plain).mapError fun e => .malformed e.message

/-- How long the stored record lives; `none` if it has expired already. -/
def lifetime? (s : AuthStorage) (a : StoredAuth) (now : Int) : Option (Option Duration) :=
  match s.backend, a.remaining? now with
  | .cookie, some left => if left ≤ 0 then none else some (some left.toNat)
  | _, _ => some none

/-- What has to be done to the store to keep a record; an expired one is removed. -/
inductive Write where
  | set (text : String) (ttl : Option Duration)
  | clear
deriving DecidableEq, Repr

def write (s : AuthStorage) (a : StoredAuth) (now : Int) : Write :=
  match s.lifetime? a now with
  | some ttl => .set (s.encode a) ttl
  | none => .clear

end AuthStorage

end ScreenFlow
