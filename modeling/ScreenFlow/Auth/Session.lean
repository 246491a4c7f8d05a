import ScreenFlow.Auth.Jwt
import ScreenFlow.Auth.Storage
import ScreenFlow.Bits
import ScreenFlow.Http.Request
import ScreenFlow.Http.Response
import ScreenFlow.Process.Basic
import ScreenFlow.Process.Broadcast
import ScreenFlow.Resolve.Credentials

/-!
# Sessions

A session begins with a login, is renewed by exchanging its refresh token, and ends with a logout or
when a renewal fails. The session in memory changes before the stored one, so that the message about
its own write tells the writer nothing new. Renewals pass a turnstile: who had to wait takes the token
that has come meanwhile.
-/

namespace ScreenFlow

inductive AuthEvent where
  | loggedIn (expiresAt : Option Int)
  | refreshed (expiresAt : Option Int)
  | loggedOut
deriving DecidableEq, Repr, Inhabited

/-- Keeps one session; `connected` says that the endpoints can be reached at all. -/
structure Auth where
  settings : AuthSettings := {}
  storage : AuthStorage
  connected : Bool := true
deriving Repr, Inhabited

namespace Auth

inductive Ask where
  | store (q : Store.Ask)
  | takeTicket
  | turn (ticket : Nat)
  | handBack (ticket : Nat)
  | session
  | setSession (a : Option StoredAuth)
  /-- The profile and the token with which it was loaded. -/
  | profile
  | setProfile (p : Option (String × Json))
  | now
  | send (r : Request)
  | emit (e : AuthEvent)
  | toLogin (path : String)

@[reducible] def Answer : Ask → Type
  | .store q => Store.Answer q
  | .takeTicket => Nat
  | .turn _ => Unit
  | .handBack _ => Unit
  | .session => Option StoredAuth
  | .setSession _ => Unit
  | .profile => Option (String × Json)
  | .setProfile _ => Unit
  | .now => Int
  | .send _ => Except Fault Reply
  | .emit _ => Unit
  | .toLogin _ => Unit

@[reducible] def interface : Interface := ⟨Ask, Answer⟩

abbrev Operation (α : Type) := Process interface α

def ask (q : Ask) : Operation (Answer q) := Process.call (I := interface) q

def exclusively {α : Type} (body : Operation α) : Operation α := do
  let ticket ← ask .takeTicket
  ask (.turn ticket)
  let a ← body
  ask (.handBack ticket)
  return a

/-- The time that one request to an endpoint of its own may take. -/
def requestTimeout : Duration := 30000

/-! ### What a session is at a time -/

/-- A sum that stays within signed 64 bits. -/
def addMillis (a b : Int) : Int := Bits.capInt64 (a + b)

def cappedMillis (d : Duration) : Int := min (d : Int) Bits.maxInt64

/-- The session of a token: its own expiry, or else the time that is known or assumed from now on. -/
def record (s : AuthSettings) (now : Int) (token : String) (refreshToken : Option String)
    (expiresIn : Option Duration) : StoredAuth where
  token := token
  refreshToken := refreshToken
  expiresAt := some ((Jwt.expiry? token).getD
    (addMillis now (cappedMillis (expiresIn.getD s.defaultLifetime))))

/-- Whether the session is there and not within the margin before its expiry. -/
def isLive (s : AuthSettings) (now : Int) (a : Option StoredAuth) : Bool :=
  a.any fun a => a.expiresAt.all fun e => now < addMillis e (-cappedMillis s.expiryMargin)

/-- Whether the session can be renewed and is within the margin. -/
def needsRefresh (s : AuthSettings) (now : Int) (a : Option StoredAuth) : Bool :=
  a.any fun a => a.refreshToken.isSome &&
    (a.remaining? now).any fun left => left < cappedMillis s.expiryMargin

/-- Whether a renewal can be tried. -/
def canRefresh (auth : Auth) (a : Option StoredAuth) : Bool :=
  auth.connected && auth.settings.tokenEndpoint.isSome && a.any fun a => a.refreshToken.isSome

/-- The profile, if it belongs to the token of the session. -/
def profileOf (a : Option StoredAuth) (p : Option (String × Json)) : Option Json :=
  match a, p with
  | some a, some (token, profile) => if a.token = token then some profile else none
  | _, _ => none

/-! ### Storing -/

def load (auth : Auth) : Operation (Except AuthError (Option StoredAuth)) := do
  match ← ask (.store (.get auth.storage.key)) with
  | .error e => return .error (.store e)
  | .ok none => return .ok none
  | .ok (some text) => return (auth.storage.decode text).map some

def clear (auth : Auth) : Operation (Except AuthError Unit) := do
  let deleted : Except StoreError Bool ← ask (.store (.delete auth.storage.key))
  return (deleted.map fun _ => ()).mapError .store

def save (auth : Auth) (a : StoredAuth) (now : Int) : Operation (Except AuthError Unit) := do
  match auth.storage.write a now with
  | .clear => auth.clear
  | .set text ttl =>
    let written : Except StoreError Unit ← ask (.store (.set auth.storage.key text ttl))
    return written.mapError .store

/-- Makes `a` the session, first in memory. -/
def establish (auth : Auth) (a : StoredAuth) : Operation (Except AuthError Unit) := do
  ask (.setSession (some a))
  let now ← ask .now
  auth.save a now

/-- Takes over what is stored, as after a restart. -/
def restore (auth : Auth) : Operation (Except AuthError (Option StoredAuth)) := do
  match ← auth.load with
  | .ok (some a) =>
    ask (.setSession (some a))
    return .ok (some a)
  | result => return result

/-! ### Login and logout -/

def login (auth : Auth) (token : String) (refreshToken : Option String)
    (expiresIn : Option Duration) : Operation (Except AuthError StoredAuth) := do
  let now ← ask .now
  let a := record auth.settings now token refreshToken expiresIn
  match ← auth.establish a with
  | .error e => return .error e
  | .ok () =>
    ask (.setProfile none)
    ask (.emit (.loggedIn a.expiresAt))
    return .ok a

def redirect (auth : Auth) : Operation Unit := ask (.toLogin auth.settings.loginPath)

/-- Ends the session; `toLogin` says whether the user is sent to the login page. -/
def logout (auth : Auth) (toLogin : Bool) : Operation (Except AuthError Unit) := do
  let before ← ask .session
  ask (.setSession none)
  ask (.setProfile none)
  let cleared ← auth.clear
  if before.isSome then ask (.emit .loggedOut)
  if toLogin then auth.redirect
  return cleared

/-! ### Renewal -/

def tokenKeys : List String := ["token", "accessToken", "access_token"]

def refreshKeys : List String := ["refreshToken", "refresh_token"]

def lifetimeKeys : List String := ["expiresIn", "expires_in"]

def firstText? (body : Json) (keys : List String) : Option String :=
  keys.findSome? fun k => (body.get? k).bind Json.str?

/-- A lifetime in seconds. -/
def firstLifetime? (body : Json) : Option Duration :=
  (lifetimeKeys.findSome? fun k => (body.get? k).bind fun v => Decoder.natBelow 64 v).map (· * 1000)

def refreshRequest (endpoint refreshToken : String) : Request :=
  { dataSourceId := "auth:refresh", method := .post, url := endpoint,
    headers := [("Content-Type", "application/json")],
    body := .json (.obj [("refreshToken", .str refreshToken)]), timeout := some requestTimeout }

/-- The session that a reply of the token endpoint stands for. -/
def ofTokenReply (s : AuthSettings) (now : Int) (refreshToken : String) (reply : Reply) :
    Except AuthError StoredAuth :=
  if !isSuccessStatus reply.status then
    .error (.refresh s!"token endpoint returned {reply.status}")
  else
    match Json.ofBytes reply.body with
    | .error e => .error (.refresh e.message)
    | .ok body =>
      match firstText? body tokenKeys with
      | none => .error (.refresh "response carried no token")
      | some token =>
        .ok (record s now token (some ((firstText? body refreshKeys).getD refreshToken))
          (firstLifetime? body))

/-- Exchanges a refresh token at the token endpoint. -/
def redeem (auth : Auth) (endpoint refreshToken : String) :
    Operation (Except AuthError StoredAuth) := do
  match ← ask (.send (refreshRequest endpoint refreshToken)) with
  | .error f => return .error (.request f)
  | .ok reply =>
    let now ← ask .now
    return ofTokenReply auth.settings now refreshToken reply

/-- Exchanges the refresh token of the session. -/
def exchange (auth : Auth) : Operation (Except AuthError StoredAuth) := do
  let a ← ask .session
  match a.bind (·.refreshToken) with
  | none => return .error .noRefreshToken
  | some refreshToken =>
    match auth.settings.tokenEndpoint.filter fun _ => auth.connected with
    | none => return .error .noTokenEndpoint
    | some endpoint => auth.redeem endpoint refreshToken

def liveToken : Operation (Option String) := do
  let a ← ask .session
  return a.map (·.token)

/-- Takes the result of an exchange: a new session, or the end of the old one. -/
def concludeRefresh (auth : Auth) (toLogin : Bool) :
    Except AuthError StoredAuth → Operation (Except AuthError String)
  | .ok a => do
    match ← auth.establish a with
    | .error e => return .error e
    | .ok () =>
      ask (.emit (.refreshed a.expiresAt))
      return .ok a.token
  | .error e => do
    let _ ← auth.logout toLogin
    return .error e

/-- What is done with the turn: a token that is live and not the one `seen` before is taken, and
otherwise the refresh token is exchanged. -/
def renewal (auth : Auth) (toLogin : Bool) (seen : Option String) :
    Operation (Except AuthError String) := do
  let a ← ask .session
  let now ← ask .now
  match a with
  | some current =>
    if seen != some current.token && isLive auth.settings now a then return .ok current.token
    else auth.concludeRefresh toLogin (← auth.exchange)
  | none => auth.concludeRefresh toLogin (← auth.exchange)

/-- Renews the session. A token that came while waiting for the turn is taken instead. -/
def refreshWith (auth : Auth) (toLogin : Bool) : Operation (Except AuthError String) := do
  let seen ← liveToken
  exclusively (auth.renewal toLogin seen)

/-- A renewal that sends the user to the login page when it fails, if the settings say so. -/
def refresh (auth : Auth) : Operation (Except AuthError String) :=
  auth.refreshWith auth.settings.requiresAuth

/-- A renewal for a request; what follows a failure is up to its caller. -/
def refreshForRequest (auth : Auth) : Operation (Except Fault String) := do
  let result ← auth.refreshWith false
  return result.mapError AuthError.toFault

/-! ### The profile -/

def profileRequest (endpoint token : String) : Request :=
  { dataSourceId := "auth:profile", method := .get, url := endpoint,
    headers := [(authorizationHeader, bearerValue token)], timeout := some requestTimeout }

/-- Asks the profile endpoint with a token. A reply 401 ends the session. -/
def fetchProfile (auth : Auth) (endpoint token : String) :
    Operation (Except AuthError (Option Json)) := do
  match ← ask (.send (profileRequest endpoint token)) with
  | .error f => return .error (.request f)
  | .ok reply =>
    if reply.status = 401 then
      match ← auth.logout auth.settings.requiresAuth with
      | .error e => return .error e
      | .ok () => return .error .unauthorized
    else if !isSuccessStatus reply.status then
      return .error (.request (.network reply.status "profile request failed" none))
    else
      match Json.ofBytes reply.body with
      | .error e => return .error (.request (.serialization e.message))
      | .ok profile =>
        ask (.setProfile (some (token, profile)))
        return .ok (some profile)

/-- The profile of the session, loaded once for each token unless `force` is set. -/
def loadProfile (auth : Auth) (force : Bool) : Operation (Except AuthError (Option Json)) := do
  match auth.settings.profileEndpoint.filter fun _ => auth.connected with
  | none => return .ok none
  | some endpoint =>
    let a ← ask .session
    match a with
    | none => return .error .notLoggedIn
    | some a =>
      let kept ← ask .profile
      match if force then none else profileOf (some a) kept with
      | some profile => return .ok (some profile)
      | none => auth.fetchProfile endpoint a.token

/-! ### Changes made elsewhere -/

/-- Takes over a record that someone else has stored. -/
def adopt (a : StoredAuth) : Operation Unit := do
  let before ← ask .session
  if before == some a then return
  ask (.setSession (some a))
  ask (.setProfile none)
  ask (.emit (if before.isSome then .refreshed a.expiresAt else .loggedIn a.expiresAt))

/-- Ends the session because someone else has removed the stored record. -/
def endElsewhere (auth : Auth) : Operation Unit := do
  let before ← ask .session
  if before.isNone then return
  ask (.setSession none)
  ask (.setProfile none)
  ask (.emit .loggedOut)
  if auth.settings.requiresAuth then auth.redirect

/-- What a change of the stored record leads to; an unreadable one is passed over. -/
def applyStored (auth : Auth) (text : Option String) : Operation Unit :=
  match text with
  | none => auth.endElsewhere
  | some text =>
    match auth.storage.decode text with
    | .ok a => adopt a
    | .error _ => return

/-- One message of the store. -/
def onChange (auth : Auth) (c : StoreChange) : Operation Unit :=
  if c.key = auth.storage.key then auth.applyStored c.value else return

/-- Messages were missed, so the store is read again. -/
def onLag (auth : Auth) : Operation Unit := do
  match ← auth.load with
  | .ok (some a) => adopt a
  | .ok none => auth.endElsewhere
  | .error _ => return

/-- What a follower of the store has received. -/
def onReceived (auth : Auth) : Broadcast.Received StoreChange → Operation Unit
  | .message c => auth.onChange c
  | .lagged _ => auth.onLag
  | .nothing => return

/-- One look at the remaining lifetime. -/
def refreshIfDue (auth : Auth) : Operation Unit := do
  let now ← ask .now
  let a ← ask .session
  if needsRefresh auth.settings now a then
    let _ ← auth.refresh

end Auth

end ScreenFlow
