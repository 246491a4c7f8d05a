import ScreenFlow.Bits
import ScreenFlow.Json.Reader
import ScreenFlow.Json.Record
import ScreenFlow.Text.Base64
import ScreenFlow.Text.Chars

/-!
# Expiry of a token

A token of three parts tells its own expiry in the claim `exp`, in seconds. Its signature is not
looked at: the expiry only says when to refresh. Any other token is opaque.
-/

namespace ScreenFlow.Jwt

def algorithms : List String :=
  ["HS256", "HS384", "HS512", "ES256", "ES384", "RS256", "RS384", "RS512", "PS256", "PS384",
   "PS512", "EdDSA"]

/-! ### Headers -/

/-- What a public key can be for. -/
def keyAlgorithms : List String := algorithms ++ ["RSA1_5", "RSA-OAEP", "RSA-OAEP-256"]

/-- A name alone, or as the only key of an object whose value is null or empty. -/
def decodeAlgorithm : Decoder String
  | .obj f [(name, .obj _ [])] => Decoder.oneOf keyAlgorithms id (.obj f [(name, .null)])
  | v => Decoder.oneOf keyAlgorithms id v

/-- The parameters that a key of any family may have. -/
def decodeCommon : Decoder Unit := .record do
  let _ ← .optional "use" .string
  let _ ← .optional "key_ops" (.list .string)
  let _ ← .optional "alg" decodeAlgorithm
  let _ ← .optional "kid" .string
  let _ ← .optional "x5u" .string
  let _ ← .optional "x5c" (.list .string)
  let _ ← .optional "x5t" .string
  let _ ← .optional "x5t#S256" .string

def curves : List String := ["P-256", "P-384", "P-521", "Ed25519"]

/-- The parameters that a family of keys cannot do without. -/
def decodeFamily (name : String) (texts : List String) (onCurve : Bool) : Decoder Unit := .record do
  let _ ← .required "kty" (.oneOf [name] id)
  if onCurve then
    let _ ← .required "crv" (.oneOf curves id)
  texts.forM fun t => do
    let _ ← .required t .string

/-- A public key of a known family. -/
def decodeKey : Decoder Unit := .whole fun v => do
  guard (v matches .obj ..)
  decodeCommon v
  (decodeFamily "EC" ["x", "y"] true v).or <| (decodeFamily "RSA" ["n", "e"] false v).or <|
    (decodeFamily "oct" ["k"] false v).or (decodeFamily "OKP" ["x"] true v)

/-- A header counts as one if it names a known algorithm and its other fields have their types. -/
def decodeHeader : Decoder Unit := .record do
  let _ ← .optionalByName "typ" .string
  let _ ← .required "alg" (.oneOf algorithms id)
  let _ ← .optionalByName "cty" .string
  let _ ← .optionalByName "jku" .string
  let _ ← .optionalByName "jwk" decodeKey
  let _ ← .optionalByName "kid" .string
  let _ ← .optionalByName "x5u" .string
  let _ ← .optionalByName "x5c" (.list .string)
  let _ ← .optionalByName "x5t" .string
  let _ ← .optionalByName "x5t#S256" .string

/-! ### Claims -/

/-- Whether a registered claim can be passed. Its value may be of any type, but must be read up to its
end: a subject is not opened if it is a list or an object, and "not before" no further than its first
bracket. -/
def isPassable (claim : String) (v : Source) : Bool :=
  match claim, v with
  | "sub", .arr .. | "sub", .obj .. => false
  | "nbf", .arr _ (_ :: _) | "nbf", .obj _ (_ :: _) => false
  | _, v => v.isPassed

/-- The claim `exp` of a payload whose registered claims occur at most once. -/
def decodeExpiry : Decoder Int
  | .obj _ fields => do
    let named (name : String) := (fields.filter (·.1 == name)).map (·.2)
    guard <| ["iss", "aud", "sub", "nbf"].all fun claim =>
      (named claim).length ≤ 1 && (named claim).all (isPassable claim)
    match named "exp" with
    | [v] => Decoder.int64 v
    | _ => none
  | _ => none

/-! ### Tokens -/

def readPart? {α : Type} (d : Decoder α) (part : List Char) : Option α := do
  let bytes ← (Base64.decodeUrl (String.ofList part)).toOption
  (Json.decodeBytes d bytes).toOption

/-- Header and payload: what stands before the last two dots. -/
def split? (token : String) : Option (List Char × List Char) := do
  let (_, message) ← Text.splitAt? ['.'] token.toList.reverse
  let (payload, header) ← Text.splitAt? ['.'] message
  return (header.reverse, payload.reverse)

/-- Milliseconds, up to the largest signed 64-bit number. -/
def toMillis (seconds : Int) : Int := Bits.capInt64 (seconds * 1000)

/-- The expiry of a token in milliseconds since the epoch. -/
def expiry? (token : String) : Option Int := do
  let (header, payload) ← split? token
  readPart? decodeHeader header
  return toMillis (← readPart? decodeExpiry payload)

end ScreenFlow.Jwt
