import Mathlib.Data.Set.Basic
import ShoppingProject.Identity
import ShoppingProject.SigningKeys

/-!
# Revoking access tokens

The bearer authentication asks the cache for `revoked_token:` and the identifier of the
token, its claim `jti`. `GenerateJwtToken` writes no such claim. A token is represented by
the payload it spells and its signature; HMAC-SHA256 is a parameter.
-/
namespace TokenRevocation

open DomainEvents (DateTime ticksPerMinute)
open Identity (ApplicationUser)
open SigningKeys (signingKey bearerKey)
open TextEncodings (Text)
open Validation (isNullOrWhiteSpace)

/-- The types of claims that .NET names, and those with a name of their own. -/
inductive ClaimType where
  | nameIdentifier | email | role
  | named (name : String)
  deriving DecidableEq, Repr

structure Claim where
  type : ClaimType
  value : String
  deriving DecidableEq, Repr

structure Payload where
  issuer : String
  audience : String
  claims : List Claim
  /-- In seconds. -/
  expires : Int
  deriving DecidableEq, Repr

structure Token where
  payload : Payload
  signature : List UInt8
  deriving DecidableEq, Repr

abbrev Hmac := List UInt8 → Payload → Option (List UInt8)

/-- The options that both sides read; neither works without the texts. -/
structure JwtOptions where
  issuer : String
  audience : String
  secret : Text
  expiryMinutes : Int

def ticksPerSecond : Int := 10000000

/-- What a token is made from. -/
structure Request where
  user : ApplicationUser
  roles : List String
  utcNow : DateTime

def payload (jwt : JwtOptions) (request : Request) : Payload where
  issuer := jwt.issuer
  audience := jwt.audience
  claims := [⟨.nameIdentifier, request.user.id⟩, ⟨.email, request.user.email⟩] ++
    request.roles.map fun role => ⟨.role, role⟩
  expires := (request.utcNow + jwt.expiryMinutes * ticksPerMinute) / ticksPerSecond

def generateJwtToken (hmac : Hmac) (jwt : JwtOptions) (request : Request) : Option Token :=
  (hmac (signingKey jwt.secret) (payload jwt request)).map fun signature =>
    ⟨payload jwt request, signature⟩

/-! ## The bearer authentication -/

/-- The claims of the principal; what the token is registered with are claims as well. -/
def principal (p : Payload) : List Claim :=
  p.claims ++ [⟨.named "exp", toString p.expires⟩, ⟨.named "iss", p.issuer⟩,
    ⟨.named "aud", p.audience⟩]

/-- `FindFirst` of a claim with a name, which compares without case. -/
def findFirst (name : String) (claims : List Claim) : Option String :=
  (claims.find? fun claim => match claim.type with
    | .named n => n.toLower == name.toLower
    | _ => false).map Claim.value

/-- The default of `ClockSkew`, five minutes. -/
def clockSkew : Int := 5 * ticksPerMinute

/-- `TokenValidationParameters`. -/
def validateToken (hmac : Hmac) (jwt : JwtOptions) (utcNow : DateTime) (token : Token) : Bool :=
  hmac (bearerKey jwt.secret) token.payload == some token.signature &&
  (!isNullOrWhiteSpace (some token.payload.issuer) && token.payload.issuer == jwt.issuer) &&
  (!isNullOrWhiteSpace (some token.payload.audience) && token.payload.audience == jwt.audience) &&
  decide (utcNow - clockSkew ≤ token.payload.expires * ticksPerSecond)

/-- `OnTokenValidated`, with what the cache finds under a key: whether the token is failed. -/
def onTokenValidated (cache : String → Option String) (claims : List Claim) : Bool :=
  match findFirst "jti" claims with
  | none => false
  | some jti =>
    if jti = "" then false
    else match cache ("revoked_token:" ++ jti) with
      | none => false
      | some isRevoked => isRevoked != ""

def authenticate (hmac : Hmac) (jwt : JwtOptions) (cache : String → Option String)
    (utcNow : DateTime) (token : Token) : Bool :=
  validateToken hmac jwt utcNow token && !onTokenValidated cache (principal token.payload)

/-! ## Revocability -/

/-- The tokens that have been issued on some requests. -/
def issued (hmac : Hmac) (jwt : JwtOptions) (requests : Set Request) : Set Token :=
  { token | ∃ request ∈ requests, token ∈ generateJwtToken hmac jwt request }

/-- Some entries make the authentication reject exactly the chosen tokens. -/
def Revocable (hmac : Hmac) (jwt : JwtOptions) (requests : Set Request) (chosen : Set Token)
    (utcNow : DateTime) : Prop :=
  ∃ cache : String → Option String, ∀ token ∈ issued hmac jwt requests,
    (authenticate hmac jwt cache utcNow token = true ↔
      token ∉ chosen ∧ validateToken hmac jwt utcNow token = true)

variable {hmac : Hmac} {jwt : JwtOptions} {requests : Set Request} {token : Token}

/-- No token has an identifier. -/
theorem no_jti (request : Request) : findFirst "jti" (principal (payload jwt request)) = none := by
  have hnames : ("exp".toLower == "jti".toLower) = false ∧
      ("iss".toLower == "jti".toLower) = false ∧
      ("aud".toLower == "jti".toLower) = false := by decide +kernel
  rw [findFirst, Option.map_eq_none_iff, List.find?_eq_none]
  intro claim hclaim
  simp only [principal, payload, List.mem_append, List.mem_cons, List.mem_map,
    List.not_mem_nil, or_false] at hclaim
  rcases hclaim with ((rfl | rfl) | ⟨role, -, rfl⟩) | rfl | rfl | rfl
  · simp
  · simp
  · simp
  · simpa using hnames.1
  · simpa using hnames.2.1
  · simpa using hnames.2.2

/-- What the cache holds makes no difference to an issued token. -/
theorem authenticate_issued (h : token ∈ issued hmac jwt requests)
    (cache : String → Option String) (utcNow : DateTime) :
    authenticate hmac jwt cache utcNow token = validateToken hmac jwt utcNow token := by
  obtain ⟨request, -, htoken⟩ := h
  obtain ⟨signature, -, rfl⟩ := Option.map_eq_some_iff.mp htoken
  rw [authenticate, onTokenValidated, no_jti]
  simp

/-- Only tokens that are rejected anyway can be revoked. -/
theorem revocable_iff (hmac : Hmac) (jwt : JwtOptions) (requests : Set Request)
    (chosen : Set Token) (utcNow : DateTime) : Revocable hmac jwt requests chosen utcNow ↔
      ∀ token ∈ issued hmac jwt requests, token ∈ chosen →
        validateToken hmac jwt utcNow token = false := by
  constructor
  · rintro ⟨cache, h⟩ token htoken hchosen
    have hsame := h token htoken
    rw [authenticate_issued htoken] at hsame
    by_contra hvalid
    exact (hsame.mp (by simpa using hvalid)).1 hchosen
  · intro h
    refine ⟨fun _ => none, fun token htoken => ?_⟩
    rw [authenticate_issued htoken]
    refine (and_iff_right_of_imp fun hvalid hchosen => ?_).symm
    rw [h token htoken hchosen] at hvalid
    cases hvalid

/-! ## A token that stays good -/

def login : Request where
  user := ⟨"1", "client", "client@shop", none, none, none, none, "", none, none, 0⟩
  roles := ["Client"]
  utcNow := 0

/-- Keys of less than 256 bits are refused. -/
def keyed : Hmac := fun key _ => if 32 ≤ key.length then some key else none

def shop : JwtOptions := ⟨"Shop", "Clients", List.replicate 32 97, 60⟩

/-- A minute after the login its token is as good as ever. -/
theorem login_stays : ¬ Revocable keyed shop {login}
    { token | token ∈ generateJwtToken keyed shop login } ticksPerMinute := by
  rintro ⟨cache, h⟩
  have htoken : (⟨payload shop login, signingKey shop.secret⟩ : Token) ∈
      generateJwtToken keyed shop login := by decide
  have hissued : (⟨payload shop login, signingKey shop.secret⟩ : Token) ∈
      issued keyed shop {login} := ⟨login, rfl, htoken⟩
  have hvalid : validateToken keyed shop ticksPerMinute
      ⟨payload shop login, signingKey shop.secret⟩ = true := by decide
  have hsame := h _ hissued
  rw [authenticate_issued hissued] at hsame
  exact (hsame.mp hvalid).1 htoken

end TokenRevocation
