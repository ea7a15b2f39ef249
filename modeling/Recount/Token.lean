import Recount.Digest.Sha256
import Recount.Digest.Text
import Recount.Id
import Recount.Text.Trim

/-!
# Tokens

A token is three texts joined by points: a header, claims, and the keyed digest of both. It tells
who calls and for which tenant, until it expires.
-/

namespace Recount

/-- What a token claims. -/
structure Claims where
  subject : String
  user : Id
  tenant : Id
  email : String
  /-- The second from which the token is no longer good. -/
  expiry : Nat
  issued : Nat
deriving DecidableEq, Repr

/-- Why a token is refused. -/
inductive TokenFault where
  | notAToken
  | encoding
  | content
  | algorithm
  | signature
  | expired
  | audience
deriving DecidableEq, Repr

/-- The name of a fault. -/
def TokenFault.message : TokenFault → String
  | notAToken => "InvalidToken"
  | encoding => "Base64 error"
  | content => "JSON error"
  | algorithm => "InvalidAlgorithm"
  | signature => "InvalidSignature"
  | expired => "ExpiredSignature"
  | audience => "InvalidAudience"

/-- A way to sign. Only the first is used; of the others the names are known. -/
inductive Signing where
  | hs256
  | other
deriving DecidableEq, Repr

/-- Reads the name of a way to sign. -/
def Signing.ofName? (name : String) : Option Signing :=
  if name == "HS256" then some .hs256
  else if ["HS384", "HS512", "ES256", "ES384", "RS256", "RS384", "RS512", "PS256", "PS384", "PS512",
      "EdDSA"].contains name then some .other
  else none

namespace Claims

open Json Json.Decode

/-- Decodes claims. -/
def decode : Decoder Claims :=
  record (Claims.mk <$> field "sub" text <*> field "user_id" Id.decode
    <*> field "tenant_id" Id.decode <*> field "email" text <*> field "exp" (natOfBits 64)
    <*> field "iat" (natOfBits 64))

/-- Claims as JSON. -/
def toJson (c : Claims) : Json :=
  ofMembers [("sub", .str c.subject), ("user_id", c.user.toJson), ("tenant_id", c.tenant.toJson),
    ("email", .str c.email), ("exp", .nat c.expiry), ("iat", .nat c.issued)]

end Claims

namespace Token

open Json Json.Decode

/-- The texts that a key of each kind is made of. -/
def keyParts : List (String × List String) :=
  [("EC", ["crv", "x", "y"]), ("RSA", ["n", "e"]), ("oct", ["k"]), ("OKP", ["crv", "x"])]

/-- The key has a kind and the texts that belong to it. -/
def isKey (key : Json) : Bool :=
  let textAt? (name : String) : Option String := (key.get? name).bind Json.str?
  match (textAt? "kty").bind fun kind => keyParts.lookup kind with
  | some names => names.all fun name => (textAt? name).isSome
  | none => false

/-- A key in a header, which is not used. -/
def decodeKey : Decoder Unit := fun draft => do
  if isKey (← value draft) then .ok () else .error .unfit

/-- Decodes the header of a token. Only the way to sign is used; the other fields have to fit. -/
def decodeHeader : Decoder Signing :=
  let unused name := optField name text
  record ((fun _ signing _ _ _ _ _ _ _ _ => signing)
    <$> unused "typ" <*> field "alg" (choice Signing.ofName?) <*> unused "cty" <*> unused "jku"
    <*> optField "jwk" decodeKey <*> unused "kid" <*> unused "x5u" <*> optField "x5c" (list text)
    <*> unused "x5t" <*> unused "x5t#S256")

/-- A time before which a token is not good, which is not looked at. It may be of another kind, but
not an array or an object that holds something. -/
def decodeStart : Decoder Unit
  | .arr (_ :: _) _ => .error .unfit
  | .obj (_ :: _) _ => .error .unfit
  | draft => if draft.isFormed then .ok () else .error .malformed

/-- An audience is one text or a list of texts; anything else names none. -/
def isAudience : Json → Bool
  | .str _ => true
  | .arr items => items.all (·.str?.isSome)
  | _ => false

/-- Decodes whether claims name an audience. -/
def decodeAudience : Decoder Bool :=
  record ((fun _ _ audience => audience) <$> fieldWithDefault () "nbf" decodeStart
    <*> fieldWithDefault .null "iss" value
    <*> fieldWithDefault false "aud" (fun draft => isAudience <$> value draft))

/-- The value that a part of a token holds. -/
def ofPart (decode : Decoder α) (part : String) : Except TokenFault α :=
  match Bytes.ofBase64? part with
  | none => .error .encoding
  | some bytes =>
    match String.fromUTF8? bytes with
    | some content => (ofWholeText decode content).mapError fun _ => .content
    | none => .error .content

/-- A part of a token that holds a value. -/
def toPart (value : Json) : String := Bytes.toBase64 value.print.toUTF8

/-- The signature of a text. -/
def signature (secret content : String) : String :=
  Bytes.toBase64 (Sha256.keyedDigest secret.toUTF8 content.toUTF8)

/-- The header of the tokens that are issued. -/
def header : Json := Json.ofMembers [("alg", .str "HS256"), ("typ", .str "JWT")]

/-- Issues a token. -/
def issue (secret : String) (claims : Claims) : String :=
  let content := toPart header ++ "." ++ toPart claims.toJson
  content ++ "." ++ signature secret content

/-- The header, the claims and the signature of a token; points may stand in the first part. -/
def parts? (token : String) : Option (String × String × String) :=
  match (Text.split '.' token).reverse with
  | sign :: claims :: header :: rest =>
    some (Text.join "." (rest.reverse ++ [header]), claims, sign)
  | _ => none

/-- The seconds by which clocks may differ. -/
def leeway : Nat := 60

/-- The claims of a token that is good at the given second. Tokens of this service are for no
audience in particular. -/
def check (secret token : String) (now : Nat) : Except TokenFault Claims := do
  let some (header, content, sign) := parts? token | .error .notAToken
  let signing ← ofPart decodeHeader header
  if signing ≠ .hs256 then .error .algorithm
  else if sign != signature secret (header ++ "." ++ content) then .error .signature
  else
    let claims ← ofPart Claims.decode content
    let hasAudience ← ofPart decodeAudience content
    if claims.expiry + leeway < now then .error .expired
    else if hasAudience then .error .audience
    else .ok claims

/-- The token in the value of a header. -/
def ofHeader? (value : String) : Option String :=
  (Text.afterStart? "Bearer ".toList value.toList).map String.ofList

end Token
end Recount
