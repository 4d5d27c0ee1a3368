import TrustLayer.Library.Base64
import TrustLayer.Library.Json

/-!
# The tenant of a request

The resolver reads the headers, then tries the bearer token, then falls back to
`X-Org-Id`.  A token that does not decode leaves the fallback open.
-/

namespace TrustLayer.OrgResolver

open TrustLayer.Library

/-- What the resolver takes from the Python library. -/
class JwtHost where
  /-- `json.loads`, `none` where it raises. -/
  jsonLoads : List UInt8 → Option Json
  /-- `str` of a list or a dictionary. -/
  containerStr : Json → Str
  /-- `hmac.new(key, message, sha256).digest()`. -/
  hmacSha256 : (key message : List UInt8) → List UInt8

/-! ## Text of headers -/

/-- `bytes.decode("latin-1")`, which never fails. -/
def decodeLatin1 (bytes : List UInt8) : Str :=
  bytes.map byteChar

/-- `str.lower` on the characters of Latin-1. -/
def lowerChar (char : Char) : Char :=
  let code := char.toNat
  if (65 ≤ code ∧ code ≤ 90) ∨ (0xC0 ≤ code ∧ code ≤ 0xDE ∧ code ≠ 0xD7) then
    Char.ofNat (code + 32)
  else char

def lower (text : Str) : Str :=
  text.map lowerChar

/-- `str.isspace` of a character. -/
def isSpace (char : Char) : Bool :=
  isWhitespace char || (0x1C ≤ char.toNat && char.toNat ≤ 0x1F)

/-- `str.strip`. -/
def strip (text : Str) : Str :=
  (text.dropWhile isSpace).rdropWhile isSpace

/-- A header as the server passes it on, in bytes. -/
abbrev Header := List UInt8 × List UInt8

/-- The two values that the loop over the headers keeps. -/
structure Collected where
  authValue : Str
  xOrgValue : Str
  deriving DecidableEq

def Collected.empty : Collected :=
  { authValue := [], xOrgValue := [] }

def authorization : Str := "authorization".toList

def xOrgId : Str := "x-org-id".toList

def bearer : Str := "bearer ".toList

/-- The name of a header, as it is compared. -/
def nameOf (header : Header) : Str :=
  lower (decodeLatin1 header.1)

def readHeader (collected : Collected) (header : Header) : Collected :=
  let value := decodeLatin1 header.2
  if nameOf header = authorization then { collected with authValue := value }
  else if nameOf header = xOrgId then
    { collected with xOrgValue := strip value }
  else collected

/-! ## Tokens -/

/-- `_b64url_decode`. -/
def b64urlDecode (text : Str) : Option (List UInt8) :=
  let pad := List.replicate ((4 - text.length % 4) % 4) '='
  (Base64.urlsafeB64decode (text ++ pad)).toOption

/-- `str` of a claim. -/
def claimText [JwtHost] : Json → Str
  | .null => "None".toList
  | .bool value => if value then "True".toList else "False".toList
  | .int value => (toString value).toList
  | .float repr => repr
  | .str text => text
  | .arr items => JwtHost.containerStr (.arr items)
  | .obj members => JwtHost.containerStr (.obj members)

section

variable [JwtHost]

def loadsSegment (segment : Str) : Option Json :=
  (b64urlDecode segment).bind JwtHost.jsonLoads

/-- `None` also where the decoder raises: every exception is caught. -/
def decodeJwtOrgId (token jwtSecret : Str) : Option Str :=
  match token.splitOn '.' with
  | [headerB64, payloadB64, sigB64] => do
      let header ← loadsSegment headerB64
      let payload ← loadsSegment payloadB64
      let signingInput := utf8Bytes (headerB64 ++ '.' :: payloadB64)
      let expectedSig := JwtHost.hmacSha256 (utf8Bytes jwtSecret) signingInput
      let actualSig ← b64urlDecode sigB64
      if expectedSig ≠ actualSig then none
      else if (← header.get? "alg") ≠ .str "HS256".toList then none
      else
        let org ← payload.get? "org_id"
        if org.truthy then some (claimText org) else none
  | _ => none

/-- The part of an `Authorization` value behind `Bearer`. -/
def bearerToken (authValue : Str) : Option Str :=
  if bearer.isPrefixOf (lower authValue) then
    some (strip (authValue.drop bearer.length))
  else none

/-- The `X-Org-Id` header, unless it is blank. -/
def fallback (xOrgValue : Str) : Option Str :=
  if xOrgValue ≠ [] then some xOrgValue else none

def resolveOrgIdFromScope (headers : List Header) (jwtSecret : Option Str) :
    Option Str :=
  let collected := headers.foldl readHeader .empty
  match bearerToken collected.authValue with
  | none => fallback collected.xOrgValue
  | some token =>
      match jwtSecret with
      | none | some [] => none
      | some secret =>
          match decodeJwtOrgId token secret with
          | none | some [] => fallback collected.xOrgValue
          | some org => some org

/-! ## Signed claims -/

/-- The HS256 signature of `token` verifies under `secret`, and its claim names
`org`. -/
def SignedClaim (secret token org : Str) : Prop :=
  ∃ headerB64 payloadB64 sigB64 : Str, ∃ header payload : Dict, ∃ claim : Json,
    token.splitOn '.' = [headerB64, payloadB64, sigB64] ∧
    b64urlDecode sigB64 = some (JwtHost.hmacSha256 (utf8Bytes secret)
      (utf8Bytes (headerB64 ++ '.' :: payloadB64))) ∧
    loadsSegment headerB64 = some (.obj header) ∧
    header.lookup "alg".toList = some (.str "HS256".toList) ∧
    loadsSegment payloadB64 = some (.obj payload) ∧
    payload.lookup "org_id".toList = some claim ∧
    claim.truthy = true ∧ org = claimText claim

theorem decodeJwtOrgId_eq_some_iff {token secret org : Str} :
    decodeJwtOrgId token secret = some org ↔ SignedClaim secret token org := by
  constructor
  · intro decoded
    unfold decodeJwtOrgId at decoded
    split at decoded
    · rename_i headerB64 payloadB64 sigB64 parts
      simp only [Option.bind_eq_bind, Option.bind_eq_some_iff] at decoded
      obtain ⟨header, headerRead, payload, payloadRead, sig, sigRead, decoded⟩ :=
        decoded
      split at decoded
      · cases decoded
      · rename_i verified
        obtain ⟨alg, algRead, decoded⟩ := Option.bind_eq_some_iff.mp decoded
        split at decoded
        · cases decoded
        · rename_i hs256
          obtain ⟨claim, claimRead, decoded⟩ :=
            Option.bind_eq_some_iff.mp decoded
          split at decoded
          · rename_i truthy
            have named := Option.some.inj decoded
            have notNull : claim ≠ .null := by
              rintro rfl
              cases truthy
            rw [not_not.mp hs256] at algRead
            obtain ⟨headerMembers, rfl, algorithm⟩ :=
              (Json.get?_eq_some_iff (by simp)).mp algRead
            obtain ⟨payloadMembers, rfl, claimed⟩ :=
              (Json.get?_eq_some_iff notNull).mp claimRead
            exact ⟨headerB64, payloadB64, sigB64, headerMembers, payloadMembers,
              claim, parts, by rw [sigRead, not_not.mp verified], headerRead,
              algorithm, payloadRead, claimed, truthy, named.symm⟩
          · cases decoded
    · cases decoded
  · rintro ⟨headerB64, payloadB64, sigB64, header, payload, claim, parts,
      sigRead, headerRead, algorithm, payloadRead, claimed, truthy, rfl⟩
    have notNull : claim ≠ .null := by
      rintro rfl
      cases truthy
    have algRead : (Json.obj header).get? "alg" = some (.str "HS256".toList) :=
      (Json.get?_eq_some_iff (by simp)).mpr ⟨header, rfl, algorithm⟩
    have claimRead : (Json.obj payload).get? "org_id" = some claim :=
      (Json.get?_eq_some_iff notNull).mpr ⟨payload, rfl, claimed⟩
    simp [decodeJwtOrgId, parts, sigRead, headerRead, payloadRead, algRead,
      claimRead, truthy]

end

/-! ## Which headers count -/

/-- The value of the last header of a name. -/
def lastValue (name : Str) (headers : List Header) : Option Str :=
  ((headers.filter fun header => nameOf header = name).map fun header =>
    decodeLatin1 header.2).getLast?

theorem lastValue_concat (name : Str) (headers : List Header)
    (header : Header) :
    lastValue name (headers ++ [header]) =
      if nameOf header = name then some (decodeLatin1 header.2)
      else lastValue name headers := by
  by_cases named : nameOf header = name
  · simp [lastValue, named]
  · simp [lastValue, named]

theorem lastValue_mem {name value : Str} {headers : List Header}
    (last : value ∈ lastValue name headers) :
    ∃ header ∈ headers, nameOf header = name ∧
      decodeLatin1 header.2 = value := by
  have member := List.mem_of_getLast? last
  simp only [List.mem_map, List.mem_filter, decide_eq_true_eq] at member
  obtain ⟨header, ⟨present, named⟩, same⟩ := member
  exact ⟨header, present, named, same⟩

/-- The tenant that the last `X-Org-Id` header states. -/
def statedOrg (headers : List Header) : Str :=
  strip ((lastValue xOrgId headers).getD [])

/-- The later header of a name replaces the earlier one. -/
theorem foldl_readHeader (headers : List Header) :
    headers.foldl readHeader .empty =
      { authValue := (lastValue authorization headers).getD []
        xOrgValue := statedOrg headers } := by
  induction headers using List.reverseRecOn with
  | nil => rfl
  | append_singleton headers header induction =>
      rw [List.foldl_append, induction]
      simp only [List.foldl_cons, List.foldl_nil, statedOrg, lastValue_concat]
      by_cases auth : nameOf header = authorization
      · have notOrg : ¬ authorization = xOrgId := by decide
        simp [readHeader, auth, notOrg]
      · by_cases org : nameOf header = xOrgId
        · have notAuth : ¬ xOrgId = authorization := by decide
          simp [readHeader, org, notAuth]
        · simp [readHeader, auth, org]

/-- The bearer tokens of a request. -/
def bearerTokens (headers : List Header) : List Str :=
  (headers.filter fun header => nameOf header = authorization).filterMap
    fun header => bearerToken (decodeLatin1 header.2)

/-- The token of the last `Authorization` header, if that is a bearer. -/
def lastBearer (headers : List Header) : Option Str :=
  (lastValue authorization headers).bind bearerToken

theorem lastBearer_eq (headers : List Header) :
    bearerToken ((lastValue authorization headers).getD []) =
      lastBearer headers := by
  cases last : lastValue authorization headers with
  | none =>
      simp only [lastBearer, last]
      decide
  | some value => simp [lastBearer, last]

theorem lastBearer_mem {headers : List Header} {token : Str}
    (last : lastBearer headers = some token) :
    token ∈ bearerTokens headers := by
  obtain ⟨value, lastIs, read⟩ := Option.bind_eq_some_iff.mp last
  obtain ⟨header, member, named, rfl⟩ := lastValue_mem lastIs
  exact List.mem_filterMap.mpr
    ⟨header, List.mem_filter.mpr ⟨member, by simpa using named⟩, read⟩

/-! ## The tenant is bound to a signed token -/

section

variable [JwtHost]

/-- The last `Authorization` header is a bearer token that decides the tenant:
without a secret it is rejected, and with one it names a tenant. -/
def BearerDecides (headers : List Header) (jwtSecret : Option Str) : Prop :=
  ∃ token ∈ lastBearer headers, ∀ secret ∈ jwtSecret, secret ≠ [] →
    ∃ org, org ≠ [] ∧ SignedClaim secret token org

/-- A tenant comes from the last bearer token or, where that decides nothing,
from `X-Org-Id`. -/
theorem resolveOrgIdFromScope_eq_some_iff {headers : List Header}
    {jwtSecret : Option Str} {org : Str} :
    resolveOrgIdFromScope headers jwtSecret = some org ↔
      (∃ token ∈ lastBearer headers, ∃ secret ∈ jwtSecret, secret ≠ [] ∧
        org ≠ [] ∧ SignedClaim secret token org) ∨
      (¬ BearerDecides headers jwtSecret ∧ statedOrg headers = org ∧
        org ≠ []) := by
  have stated : fallback (statedOrg headers) = some org ↔
      statedOrg headers = org ∧ org ≠ [] := by
    unfold fallback
    split
    · constructor
      · rintro ⟨⟩
        exact ⟨rfl, ‹_›⟩
      · rintro ⟨rfl, -⟩
        rfl
    · rename_i blank
      rw [not_not.mp blank]
      simp
  unfold resolveOrgIdFromScope
  simp only [foldl_readHeader, lastBearer_eq]
  cases last : lastBearer headers with
  | none => simpa [BearerDecides, last] using stated
  | some token =>
      cases jwtSecret with
      | none => simp [BearerDecides, last]
      | some secret =>
          cases secret with
          | nil => simp [BearerDecides, last]
          | cons char secret =>
              simp only [BearerDecides, last, Option.mem_def, Option.some.injEq,
                exists_eq_left', forall_eq', ne_eq, reduceCtorEq,
                not_false_eq_true, true_and, forall_const,
                ← decodeJwtOrgId_eq_some_iff]
              cases decoded : decodeJwtOrgId token (char :: secret) with
              | none => simpa using stated
              | some found =>
                  cases found with
                  | nil => simpa using stated
                  | cons first rest =>
                      simp only [Option.some.injEq]
                      constructor
                      · rintro rfl
                        exact .inl ⟨by simp, rfl⟩
                      · rintro (⟨-, same⟩ | ⟨undecided, -⟩)
                        · exact same
                        · exact absurd ⟨_, by simp, rfl⟩ undecided

/-- `org` is the claim of a bearer token of the request that verifies. -/
def NamedBySignedToken (headers : List Header) (jwtSecret : Option Str)
    (org : Str) : Prop :=
  ∃ token ∈ bearerTokens headers, ∃ secret ∈ jwtSecret,
    SignedClaim secret token org

/-- With a bearer token in the request, no tenant but that of a signed token is
resolved. -/
def TenantBound (headers : List Header) (jwtSecret : Option Str) : Prop :=
  bearerTokens headers ≠ [] →
    ∀ org ∈ resolveOrgIdFromScope headers jwtSecret,
      NamedBySignedToken headers jwtSecret org

/-- The last bearer token decides, or `X-Org-Id` adds no tenant of its own. -/
def FallbackBound (headers : List Header) (jwtSecret : Option Str) : Prop :=
  bearerTokens headers ≠ [] →
    BearerDecides headers jwtSecret ∨ statedOrg headers = [] ∨
      NamedBySignedToken headers jwtSecret (statedOrg headers)

theorem tenantBound_iff (headers : List Header) (jwtSecret : Option Str) :
    TenantBound headers jwtSecret ↔ FallbackBound headers jwtSecret := by
  constructor
  · intro bound present
    by_cases decides : BearerDecides headers jwtSecret
    · exact .inl decides
    · by_cases blank : statedOrg headers = []
      · exact .inr (.inl blank)
      · have resolved : resolveOrgIdFromScope headers jwtSecret =
            some (statedOrg headers) :=
          resolveOrgIdFromScope_eq_some_iff.mpr (.inr ⟨decides, rfl, blank⟩)
        exact .inr (.inr (bound present _ resolved))
  · intro closed present org resolved
    rcases resolveOrgIdFromScope_eq_some_iff.mp resolved with
      ⟨token, last, secret, configured, -, -, signed⟩ |
      ⟨undecided, rfl, named⟩
    · exact ⟨token, lastBearer_mem last, secret, configured, signed⟩
    · rcases closed present with decides | blank | signed
      · exact absurd decides undecided
      · exact absurd blank named
      · exact signed

end

/-- The host on a request whose token has no dots, which asks it nothing. -/
@[reducible] def plainHost : JwtHost where
  jsonLoads := fun _ => none
  containerStr := fun _ => []
  hmacSha256 := fun _ _ => []

def latin1Bytes (text : String) : List UInt8 :=
  text.toList.map Char.toUInt8

/-- `Authorization: Bearer x` beside `X-Org-Id: victim`. -/
def victimHeaders : List Header :=
  [(latin1Bytes "Authorization", latin1Bytes "Bearer x"),
    (latin1Bytes "X-Org-Id", latin1Bytes "victim")]

/-- A caller without any signed token obtains the tenant it states. -/
theorem victimTenant_obtained :
    ¬ @TenantBound plainHost victimHeaders (some "secret".toList) := by
  intro bound
  have tokens : bearerTokens victimHeaders = ["x".toList] := by decide
  have resolved : @resolveOrgIdFromScope plainHost victimHeaders
      (some "secret".toList) = some "victim".toList := by
    decide
  obtain ⟨token, member, secret, -, headerB64, payloadB64, sigB64, -, -, -,
    parts, -⟩ := bound (by simp [tokens]) _ resolved
  rw [tokens, List.mem_singleton] at member
  subst member
  revert parts
  rw [show "x".toList.splitOn '.' = ["x".toList] by decide]
  simp

end TrustLayer.OrgResolver
