import ShoppingProject.TextEncodings

/-!
# The keys of access tokens

Tokens are signed, and validated on a refresh, with the bytes of the configured secret
in ASCII; the bearer authentication of the API validates them with its bytes in UTF-8.
HMAC-SHA256 is a parameter, which also says which keys it refuses.
-/
namespace SigningKeys

open TextEncodings

abbrev Hmac := List UInt8 → String → Option (List UInt8)

structure Token where
  content : String
  signature : List UInt8

/-- The key of `GenerateJwtToken`. -/
def signingKey (secret : Text) : List UInt8 := ascii secret

/-- The key of `GetPrincipalFromExpiredToken`. -/
def expiredTokenKey (secret : Text) : List UInt8 := ascii secret

/-- The `IssuerSigningKey` of the bearer authentication. -/
def bearerKey (secret : Text) : List UInt8 := utf8 secret

def generateJwtToken (hmac : Hmac) (secret : Text) (content : String) : Option Token :=
  (hmac (signingKey secret) content).map fun signature => ⟨content, signature⟩

/-- `ValidateIssuerSigningKey`. -/
def validates (hmac : Hmac) (key : List UInt8) (token : Token) : Prop :=
  hmac key token.content = some token.signature

/-- One key for a secret wherever it is used, and no other secret with that key. -/
structure Agrees (secret : Text) : Prop where
  signing : signingKey secret = bearerKey secret
  expired : expiredTokenKey secret = bearerKey secret
  accepted : ∀ hmac content, ∀ token ∈ generateJwtToken hmac secret content,
    validates hmac (expiredTokenKey secret) token ∧ validates hmac (bearerKey secret) token
  distinct : ∀ other, other ≠ secret →
    signingKey other ≠ signingKey secret ∧ expiredTokenKey other ≠ expiredTokenKey secret ∧
      bearerKey other ≠ bearerKey secret

/-- A token is good under the key that it was signed with. -/
theorem validates_generated {hmac : Hmac} {secret : Text} {content : String} {token : Token}
    (h : token ∈ generateJwtToken hmac secret content) :
    validates hmac (signingKey secret) token := by
  obtain ⟨signature, hsignature, rfl⟩ := Option.map_eq_some_iff.mp h
  exact hsignature

/-- The keys agree, and are the secret's own, exactly if it consists of ASCII characters
other than the question mark. -/
theorem keys_agree_iff (secret : Text) :
    Agrees secret ↔ ∀ u ∈ secret, isAscii u ∧ u ≠ questionMark := by
  constructor
  · intro h u hu
    refine ⟨(ascii_eq_utf8_iff secret).mp h.signing u hu, ?_⟩
    rintro rfl
    obtain ⟨other, hne, hsame⟩ := exists_same_ascii hu
    exact (h.distinct other hne).1 hsame
  · intro h
    have hascii : ∀ u ∈ secret, isAscii u := fun u hu => (h u hu).1
    have hmark : questionMark ∉ secret := fun hu => (h _ hu).2 rfl
    have hkeys : ascii secret = utf8 secret := (ascii_eq_utf8_iff secret).mpr hascii
    refine ⟨hkeys, hkeys, fun hmac content token htoken => ?_, fun other hne => ?_⟩
    · have hgood := validates_generated htoken
      refine ⟨hgood, ?_⟩
      rwa [bearerKey, ← hkeys]
    · have hdistinct : ascii other ≠ ascii secret :=
        fun heq => hne (ascii_injective hascii (.inr hmark) heq)
      exact ⟨hdistinct, hdistinct, fun heq => hne (utf8_injective hascii heq)⟩

/-- `clé` with a tail of forty letters, long enough to sign with. -/
def accented : Text := [99, 108, 233] ++ List.replicate 40 97

/-- Its key has 43 bytes for the tokens and 44 for the API. -/
theorem accented_keys_differ : ¬ ∀ secret : Text, Agrees secret := by
  intro hall
  have hkeys := (hall accented).signing
  exact absurd hkeys (by decide)

end SigningKeys
