import ScreenFlow.Http.Request
import ScreenFlow.Resolve.Registry
import ScreenFlow.Template
import ScreenFlow.Text.Base64

/-!
# Credentials of requests

A credential becomes one header, and never replaces a header that is already there.
-/

namespace ScreenFlow

def authorizationHeader : String := "Authorization"

def defaultKeyHeader : String := "X-API-Key"

def bearerValue (token : String) : String := "Bearer " ++ token

namespace Credential

/-- A pair of user and password is encoded; anything else counts as encoded already. -/
def basicValue (value : String) : String :=
  if value.toList.contains ':' then Base64.encode (Utf8.encode value) else value

def nonempty (value : Option String) : Option String := value.filter (!·.isEmpty)

/-- The header that a credential stands for, given its resolved value and the live token. -/
def header? (c : Credential) (value live : Option String) : Option (String × String) :=
  match c.scheme with
  | .bearer => (nonempty (live.or value)).map fun t => (authorizationHeader, bearerValue t)
  | .basic => (nonempty value).map fun v => (authorizationHeader, "Basic " ++ basicValue v)
  | .apiKey => (nonempty value).map fun v => (c.header.getD defaultKeyHeader, v)
  | .none => none

/-- The credential that counts: the declared one unless its scheme is none, else the one that is
registered for the URL. -/
def effective? (declared : Option Credential) (g : Defaults) (url : String) : Option Credential :=
  (declared.filter (!·.isNone)).or (g.endpointAuth? url)

end Credential

namespace Request

def setNewHeader (r : Request) (name value : String) : Request :=
  if r.hasHeader name then r else r.setHeader name value

def authenticate (r : Request) (declared : Option Credential) (g : Defaults) (live : Option String)
    (fill : String → String) : Request :=
  match Credential.effective? declared g r.url with
  | some c =>
    match c.header? (c.value.map fill) live with
    | some (name, value) => r.setNewHeader name value
    | none => r
  | none =>
    match live with
    | some token =>
      if g.injectSession then r.setNewHeader authorizationHeader (bearerValue token) else r
    | none => r

/-- Adds the session token as a bearer header unless there is an authorization already; the flag says
whether it did. -/
def attachSession (r : Request) (live : Option String) : Bool × Request :=
  if r.hasHeader authorizationHeader then (false, r)
  else
    match Credential.nonempty live with
    | some token => (true, r.setHeader authorizationHeader (bearerValue token))
    | none => (false, r)

end Request

end ScreenFlow
