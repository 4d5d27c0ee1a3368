import TrustLayer.CmsVerify
import TrustLayer.Library.Unicode

/-!
# The timestamp clients

`init` picks the client from the environment.  A qualified provider has an
endpoint and a file with its chain, and the client is a stub around an adapter.
-/

namespace TrustLayer.TlEvidence

open TrustLayer.CmsVerify
open TrustLayer.Library
open TrustLayer.TlVerify (hexDecode hexPairs hexVal number)

/-! ## The surroundings -/

/-- The detail is the text of the error. -/
inductive VarError where
  | notPresent
  | notUnicode (detail : Str)
  deriving DecidableEq

/-- `std::env::var` and `std::fs::read`, with the text of its error. -/
structure Host where
  var : Str → Except VarError Str
  read : Str → Except Str (List UInt8)

/-- The components in front of the last one, where nothing stands for an empty
one or for a dot. -/
def dropLastComponent (components : List Str) : Option (List Str) :=
  let isBlank := fun component => component == [] || component == ['.']
  match components.rdropWhile isBlank with
  | [] => none
  | component :: rest =>
      some ((component :: rest).dropLast.rdropWhile isBlank)

/-- `Path::parent`.  A dot in front is a component of its own. -/
def parent (path : Str) : Option Str :=
  let cut := fun (start body : Str) =>
    (dropLastComponent (splitChar '/' body)).map fun components =>
      start ++ ['/'].intercalate components
  match path with
  | '/' :: body => cut ['/'] body
  | ['.'] => some []
  | '.' :: '/' :: body => some ((cut ['.'] ('/' :: body)).getD [])
  | body => cut [] body

example : ["/a/b/c".toList, "/a".toList, "a//b/".toList, "./a".toList,
    "/".toList, "a".toList].map parent =
    [some "/a/b".toList, some "/".toList, some "a".toList, some ".".toList,
      none, some []] := by
  decide

/-- `Path::join` of a path that is not absolute. -/
def join (path relative : Str) : Str :=
  if path = [] ∨ path.getLast? = some '/' then path ++ relative
  else path ++ '/' :: relative

/-! ## Errors -/

inductive TsaError where
  | providerRequired
  | invalidProvider (provider : Str)
  | deferredToV11 (provider : Str)
  | notImplemented (feature : Str)
  | fetch (detail : Str)
  | verify (detail : Str)
  | invalidToken
  | env (detail : Str)
  deriving DecidableEq

def cmsDisplay : CmsVerifyError → Str
  | .digestLength length =>
      "expected_digest must be 32 bytes (SHA-256), got ".toList ++ number length
  | .cms detail => "cryptographic-message-syntax error: ".toList ++ detail
  | .messageImprintMismatch expected got =>
      "messageImprint mismatch: expected ".toList ++ expected ++
        ", got ".toList ++ got
  | .contentType detail =>
      "content_type is not id-ct-TSTInfo: ".toList ++ detail
  | .missingSignedAttributes => "missing signed_attributes".toList
  | .noSignedContent => "signed_content is None".toList
  | .noSignedData => "TimeStampResp has no SignedData".toList
  | .chainParse detail => "chain PEM parse failed: ".toList ++ detail
  | .chainNotCa subject => "cert in chain is not a CA: ".toList ++ subject
  | .chainEmpty => "chain.pem is empty".toList
  | .invalidInput =>
      ("input is neither a valid TimeStampResp " ++
        "nor a valid ContentInfo").toList
  | .contentInfoType detail =>
      "ContentInfo content_type is not id-signedData: ".toList ++ detail

/-! ## The digest -/

/-- `u8::from_str_radix` in base 16, which takes a sign in front. -/
def fromStrRadix16 (text : Str) : Option UInt8 :=
  let digits := (stripPrefix ['+'] text).getD text
  if digits = [] then none
  else
    (digits.foldlM (fun value char => do
      let digit ← (hexVal char 0).toOption
      let next := value * 16 + digit
      if next < 256 then some next else none) 0).map UInt8.ofNat

section

variable [UnicodeTables]

def decodeHexByte (index : Nat) (chunk : List Char) : Except TsaError UInt8 :=
  match fromUtf8 chunk with
  | none =>
      .error (.fetch ("digest_hex byte ".toList ++ number index ++
        " is not valid UTF-8".toList))
  | some text =>
      match fromStrRadix16 text with
      | none =>
          .error (.fetch ("digest_hex byte ".toList ++ number index ++
            " is not valid hex: ".toList ++ debugStr text))
      | some byte => .ok byte

/-- The loop over the chunks, of which none is of a single byte. -/
def decodeHexChunks : List Char → (index : Nat) → Except TsaError (List UInt8)
  | first :: second :: rest, index => do
      let byte ← decodeHexByte index [first, second]
      let bytes ← decodeHexChunks rest (index + 1)
      return byte :: bytes
  | _, _ => .ok []

def decodeHexDigest (digestHex : Str) : Except TsaError (List UInt8) :=
  if byteLen digestHex ≠ 64 then
    .error (.fetch
      ("digest_hex must be 64 ASCII hex chars (SHA-256), got ".toList ++
        number (byteLen digestHex)))
  else decodeHexChunks (asBytes digestHex) 0

end

/-! ## The clients -/

def defaultSectigoEndpoint : Str :=
  "https://timestamp.sectigo.com".toList

def defaultDigicertEndpoint : Str :=
  "https://timestamp.digicert.com".toList

structure SectigoTsaClient where
  endpoint : Str
  chainPem : List UInt8
  deriving DecidableEq

structure DigiCertTsaClient where
  endpoint : Str
  chainPem : List UInt8
  deriving DecidableEq

def SectigoTsaClient.verifyToken [Cms] [X509] (client : SectigoTsaClient)
    (tokenDer expectedDigest : List UInt8) : Except TsaError Unit :=
  (verifyStrictWithCerts tokenDer expectedDigest client.chainPem).mapError
    fun error => .verify ("Sectigo verify_token: ".toList ++ cmsDisplay error)

structure QualifiedTsaStub where
  inner : SectigoTsaClient
  deriving DecidableEq

namespace QualifiedTsaStub

def new : QualifiedTsaStub :=
  { inner := { endpoint := defaultSectigoEndpoint, chainPem := [] } }

def newDigicert : QualifiedTsaStub :=
  { inner := { endpoint := defaultDigicertEndpoint, chainPem := [] } }

def verifyToken [Cms] [X509] (stub : QualifiedTsaStub)
    (token digest : List UInt8) : Except TsaError Unit :=
  stub.inner.verifyToken token digest

end QualifiedTsaStub

/-- The first two know their URL. -/
inductive TsaClient where
  | mock (url : Str)
  | freeTsa (url : Str)
  | qualified (stub : QualifiedTsaStub)
  deriving DecidableEq

inductive TsaTier where
  | mock
  | freeTsa
  | qualified
  deriving DecidableEq

namespace TsaClient

def tier : TsaClient → TsaTier
  | .mock _ => .mock
  | .freeTsa _ => .freeTsa
  | .qualified _ => .qualified

def url : TsaClient → Str
  | .mock _ => "mock://local".toList
  | .freeTsa url => url
  | .qualified stub => stub.inner.endpoint

section

variable [UnicodeTables] [Cms] [X509]

/-- The quick verification of the free authority takes whatever is not empty. -/
def valid (token : List UInt8) (digestHex : Str) :
    TsaClient → Except TsaError Bool
  | .mock _ => .ok true
  | .freeTsa _ => .ok !token.isEmpty
  | .qualified stub => do
      let digestBytes ← decodeHexDigest digestHex
      return (stub.verifyToken token digestBytes).isOk

def verifyToken (client : TsaClient) (token : List UInt8) (digestHex : Str) :
    Except TsaError Unit := do
  if ← client.valid token digestHex then .ok () else .error .invalidToken

end

end TsaClient

/-! ## The choice -/

/-- The variables and the defaults of a qualified provider. -/
structure Provider where
  name : Str
  label : Str
  urlVar : Str
  chainVar : Str
  defaultEndpoint : Str
  fixture : Str

def sectigo : Provider where
  name := "sectigo".toList
  label := "Sectigo".toList
  urlVar := "TL_SECTIGO_URL".toList
  chainVar := "TL_SECTIGO_CHAIN_PEM_FILE".toList
  defaultEndpoint := defaultSectigoEndpoint
  fixture := "audit_artifacts/test_fixtures/sectigo/chain.pem".toList

def digicert : Provider where
  name := "digicert".toList
  label := "DigiCert".toList
  urlVar := "TL_DIGICERT_URL".toList
  chainVar := "TL_DIGICERT_CHAIN_PEM_FILE".toList
  defaultEndpoint := defaultDigicertEndpoint
  fixture := "audit_artifacts/test_fixtures/digicert/chain.pem".toList

namespace Provider

variable (provider : Provider) (host : Host)

def endpoint : Str :=
  match host.var provider.urlVar with
  | .ok endpoint => endpoint
  | .error _ => provider.defaultEndpoint

def chainPath : Str :=
  match host.var provider.chainVar with
  | .ok path => path
  | .error _ =>
      let crateDir :=
        match host.var "CARGO_MANIFEST_DIR".toList with
        | .ok dir => dir
        | .error _ => ['.']
      let workspace := ((parent crateDir).bind parent).getD ['.']
      join workspace provider.fixture

/-- The file of the chain. -/
def chainPem : Except TsaError (List UInt8) :=
  (host.read (provider.chainPath host)).mapError fun error =>
    .fetch (provider.label ++ " chain PEM read failed (".toList ++
      provider.chainPath host ++ "): ".toList ++ error)

end Provider

/-- The adapter that is configured is dropped, and the stub has its own. -/
def init (host : Host) : Except TsaError TsaClient :=
  match host.var "TL_TSA_PROVIDER".toList with
  | .ok provider =>
      if provider = "mock".toList then .ok (.mock "mock://local".toList)
      else if provider = "free_tsa".toList ∨ provider = "free".toList then
        .ok (.freeTsa "https://freetsa.org/tsr".toList)
      else if provider = sectigo.name then do
        let endpoint := sectigo.endpoint host
        let chainPem ← sectigo.chainPem host
        let _client : SectigoTsaClient := { endpoint, chainPem }
        return .qualified .new
      else if provider = "qualified".toList ∨ provider = "qtsp".toList then
        .ok (.qualified .new)
      else if provider = digicert.name then do
        let endpoint := digicert.endpoint host
        let chainPem ← digicert.chainPem host
        let _client : DigiCertTsaClient := { endpoint, chainPem }
        return .qualified .new
      else .error (.invalidProvider provider)
  | .error .notPresent => .error .providerRequired
  | .error (.notUnicode detail) => .error (.env detail)

/-! ## A digest in hexadecimal -/

theorem hexVal_ok {char : Char} {index digit : Nat}
    (read : hexVal char index = .ok digit) :
    char.toNat < 128 ∧ char ≠ '+' ∧ digit < 16 ∧ hexVal char 0 = .ok digit := by
  have zero : '0'.toNat = 48 := rfl
  have upper : 'A'.toNat = 65 := rfl
  have lower : 'a'.toNat = 97 := rfl
  have notSign : ∀ least : Char, '+' < least → least ≤ char → char ≠ '+' := by
    rintro least above reached rfl
    exact absurd reached (Char.not_le.mpr above)
  unfold hexVal at read ⊢
  split_ifs at read ⊢ with isUpper isLower isDigit
  · obtain rfl := Except.ok.inj read
    have most : char.toNat ≤ 70 := isUpper.2
    exact ⟨by omega, notSign 'A' (by decide) isUpper.1, by omega, rfl⟩
  · obtain rfl := Except.ok.inj read
    have most : char.toNat ≤ 102 := isLower.2
    exact ⟨by omega, notSign 'a' (by decide) isLower.1, by omega, rfl⟩
  · obtain rfl := Except.ok.inj read
    have most : char.toNat ≤ 57 := isDigit.2
    exact ⟨by omega, notSign '0' (by decide) isDigit.1, by omega, rfl⟩

/-- Two digits are read as they are everywhere else. -/
theorem fromStrRadix16_pair {high low : Char} {upper lower : Nat}
    (first : hexVal high 0 = .ok upper) (second : hexVal low 0 = .ok lower) :
    fromStrRadix16 [high, low] = some (UInt8.ofNat (upper * 16 + lower)) := by
  obtain ⟨-, unsigned, upperBound, -⟩ := hexVal_ok first
  obtain ⟨-, -, lowerBound, -⟩ := hexVal_ok second
  have whole : stripPrefix ['+'] [high, low] = none := by
    apply if_neg
    simpa using Ne.symm unsigned
  have fits : upper * 16 + lower < 256 := by omega
  have fitsFirst : upper < 256 := by omega
  simp [fromStrRadix16, whole, first, second, Except.toOption, fits, fitsFirst]

theorem hexPairs_cons {high low : Char} {rest : List Char} {index : Nat}
    {bytes : List UInt8}
    (read : hexPairs (high :: low :: rest) index = .ok bytes) :
    ∃ upper lower later, hexVal high index = .ok upper ∧
      hexVal low (index + 1) = .ok lower ∧
      hexPairs rest (index + 2) = .ok later ∧
      bytes = UInt8.ofNat (upper * 16 + lower) :: later := by
  rw [hexPairs] at read
  cases first : hexVal high index with
  | error error =>
      rw [first] at read
      cases read
  | ok upper =>
      cases second : hexVal low (index + 1) with
      | error error =>
          rw [first, second] at read
          cases read
      | ok lower =>
          cases behind_ : hexPairs rest (index + 2) with
          | error error =>
              rw [first, second, behind_] at read
              cases read
          | ok later =>
              rw [first, second, behind_] at read
              exact ⟨upper, lower, later, rfl, rfl, rfl,
                (Except.ok.inj read).symm⟩

theorem hexPairs_length {chars : List Char} {index : Nat} {bytes : List UInt8}
    (read : hexPairs chars index = .ok bytes) :
    bytes.length = chars.length / 2 := by
  induction chars, index using TlVerify.hexPairs.induct
      generalizing bytes with
  | case1 high low rest index induction =>
      obtain ⟨upper, lower, later, -, -, behind_, rfl⟩ := hexPairs_cons read
      rw [List.length_cons, induction behind_, List.length_cons,
        List.length_cons]
      omega
  | case2 chars index short =>
      rw [hexPairs] at read
      · obtain rfl := Except.ok.inj read
        rcases chars with _ | ⟨first, _ | ⟨second, rest⟩⟩
        · rfl
        · simp
        · exact absurd rfl (short first second rest)
      · exact short

/-- A text of 64 hexadecimal digits, and what it stands for. -/
def IsDigest (digestHex : Str) (digest : List UInt8) : Prop :=
  hexDecode digestHex = .ok digest ∧ digest.length = 32

theorem isDigest_toHex {digest : List UInt8} (length : digest.length = 32) :
    IsDigest (toHex digest) digest :=
  ⟨TlVerify.hexDecode_toHex digest, length⟩

section

variable [UnicodeTables]

theorem decodeHexChunks_of_hexPairs {chars : List Char} {index : Nat}
    {bytes : List UInt8} (read : hexPairs chars index = .ok bytes)
    (chunk : Nat) : decodeHexChunks chars chunk = .ok bytes := by
  induction chars, index using TlVerify.hexPairs.induct
      generalizing bytes chunk with
  | case1 high low rest index induction =>
      obtain ⟨upper, lower, later, first, second, behind_, rfl⟩ :=
        hexPairs_cons read
      obtain ⟨highAscii, -, -, highDigit⟩ := hexVal_ok first
      obtain ⟨lowAscii, -, -, lowDigit⟩ := hexVal_ok second
      have ascii : IsAscii [high, low] := by
        simp [highAscii, lowAscii]
      have text : fromUtf8 [high, low] = some [high, low] := by
        have whole := fromUtf8_asBytes [high, low]
        rwa [asBytes_of_ascii ascii] at whole
      have byte : decodeHexByte chunk [high, low] =
          .ok (UInt8.ofNat (upper * 16 + lower)) := by
        rw [decodeHexByte, text]
        simp only [fromStrRadix16_pair highDigit lowDigit]
      rw [decodeHexChunks, byte, induction behind_]
      rfl
  | case2 chars index short =>
      obtain rfl : [] = bytes := by
        rw [hexPairs] at read
        · exact Except.ok.inj read
        · exact short
      rw [decodeHexChunks]
      exact short

theorem decodeHexDigest_of_isDigest {digestHex : Str} {digest : List UInt8}
    (isDigest : IsDigest digestHex digest) :
    decodeHexDigest digestHex = .ok digest := by
  obtain ⟨decoded, length⟩ := isDigest
  rw [hexDecode] at decoded
  split_ifs at decoded with odd
  have chars := hexPairs_length decoded
  have whole : byteLen digestHex = 64 := by
    have even : (asBytes digestHex).length % 2 = 0 := not_not.mp odd
    rw [byteLen]
    omega
  rw [decodeHexDigest, if_neg (not_not.mpr whole)]
  exact decodeHexChunks_of_hexPairs decoded 0

end

/-! ## The configured client -/

section

variable [UnicodeTables] [Cms] [X509]

/-- Some token is accepted under the chain. -/
def Pins (chainPem : List UInt8) : Prop :=
  ∃ token digest, verifyStrictWithCerts token digest chainPem = .ok ()

/-- The client has the endpoint, and takes what is accepted under the chain. -/
structure Configured (endpoint : Str) (chainPem : List UInt8)
    (client : TsaClient) : Prop where
  url : client.url = endpoint
  verifies : ∀ token digestHex digest, IsDigest digestHex digest →
    (client.verifyToken token digestHex = .ok () ↔
      verifyStrictWithCerts token digest chainPem = .ok ())

/-- The environment asks for one of the two providers. -/
structure Asked (host : Host) (provider : Provider) : Prop where
  known : provider = sectigo ∨ provider = digicert
  named : host.var "TL_TSA_PROVIDER".toList = .ok provider.name

omit [UnicodeTables] in
/-- A file without a first block pins nothing. -/
theorem not_pins_of_unread {chainPem : List UInt8}
    (unread : chainPem ≠ [] → ∀ block, X509.parseX509Pem chainPem ≠ .ok block) :
    ¬ Pins chainPem := by
  rintro ⟨token, digest, accepted⟩
  obtain ⟨-, -, -, validated, -⟩ := verifyStrictWithCerts_eq_ok_iff.mp accepted
  obtain ⟨certs, chain, nonempty⟩ := validateChainPem_eq_ok_iff.mp validated
  cases chain with
  | nil => exact nonempty rfl
  | cons present block => exact unread present _ block

omit [UnicodeTables] in
theorem not_pins_nil : ¬ Pins [] :=
  not_pins_of_unread fun present => absurd rfl present

/-- A qualified client is as strict as the chain of its stub. -/
theorem verifyToken_qualified_iff {stub : QualifiedTsaStub}
    {token : List UInt8} {digestHex : Str} {digest : List UInt8}
    (isDigest : IsDigest digestHex digest) :
    (TsaClient.qualified stub).verifyToken token digestHex = .ok () ↔
      verifyStrictWithCerts token digest stub.inner.chainPem = .ok () := by
  rw [TsaClient.verifyToken, TsaClient.valid,
    decodeHexDigest_of_isDigest isDigest]
  simp only [bind, Except.bind, pure, Except.pure,
    QualifiedTsaStub.verifyToken, SectigoTsaClient.verifyToken]
  cases verifyStrictWithCerts token digest stub.inner.chainPem <;>
    simp [Except.mapError, Except.isOk, Except.toBool]

omit [UnicodeTables] [Cms] [X509] in
theorem init_of_asked {host : Host} {provider : Provider}
    (asked : Asked host provider) :
    init host =
      (provider.chainPem host).map fun _ => .qualified .new := by
  rw [init, asked.named]
  rcases asked.known with rfl | rfl
  · have others : sectigo.name ≠ "mock".toList ∧
        ¬ (sectigo.name = "free_tsa".toList ∨
          sectigo.name = "free".toList) := by
      decide
    simp only [if_neg others.1, if_neg others.2, if_true]
    cases sectigo.chainPem host <;> rfl
  · have others : digicert.name ≠ "mock".toList ∧
        ¬ (digicert.name = "free_tsa".toList ∨
          digicert.name = "free".toList) ∧
        digicert.name ≠ sectigo.name ∧
        ¬ (digicert.name = "qualified".toList ∨
          digicert.name = "qtsp".toList) := by
      decide
    simp only [if_neg others.1, if_neg others.2.1, if_neg others.2.2.1,
      if_neg others.2.2.2, if_true]
    cases digicert.chainPem host <;> rfl

/-- The stub's own endpoint and empty chain are what the client has. -/
theorem configured_new_iff {endpoint : Str} {chainPem : List UInt8} :
    Configured endpoint chainPem (.qualified .new) ↔
      endpoint = defaultSectigoEndpoint ∧ ¬ Pins chainPem := by
  constructor
  · rintro ⟨url, verifies⟩
    refine ⟨url.symm, ?_⟩
    rintro ⟨token, digest, accepted⟩
    have length := (verifyStrictWithCerts_eq_ok_iff.mp accepted).1
    have isDigest := isDigest_toHex length
    have taken := (verifies token (toHex digest) digest isDigest).mpr accepted
    exact not_pins_nil
      ⟨token, digest, (verifyToken_qualified_iff isDigest).mp taken⟩
  · rintro ⟨rfl, pinsNothing⟩
    refine ⟨rfl, fun token digestHex digest isDigest => ?_⟩
    rw [verifyToken_qualified_iff isDigest]
    constructor
    · intro taken
      exact absurd ⟨token, digest, taken⟩ not_pins_nil
    · intro accepted
      exact absurd ⟨token, digest, accepted⟩ pinsNothing

/-- The client is the configured one where the configuration is that of the
stub. -/
theorem init_configured_iff {host : Host} {provider : Provider}
    {client : TsaClient} (asked : Asked host provider)
    (returned : init host = .ok client) :
    ∃ chainPem, host.read (provider.chainPath host) = .ok chainPem ∧
      (Configured (provider.endpoint host) chainPem client ↔
        provider.endpoint host = defaultSectigoEndpoint ∧
          ¬ Pins chainPem) := by
  rw [init_of_asked asked, Provider.chainPem] at returned
  cases read : host.read (provider.chainPath host) with
  | error error =>
      rw [read] at returned
      cases returned
  | ok chainPem =>
      rw [read] at returned
      obtain rfl := Except.ok.inj returned
      exact ⟨chainPem, rfl, configured_new_iff⟩

/-- Whatever is asked for and read is what the client has. -/
def InitConfigures : Prop :=
  ∀ host provider client chainPem, Asked host provider →
    init host = .ok client →
    host.read (provider.chainPath host) = .ok chainPem →
    Configured (provider.endpoint host) chainPem client

end

/-! ## A host that reads one file -/

/-- Nothing but the provider is set, and each file has the same bytes. -/
def bareHost (provider : Provider) (chainPem : List UInt8) : Host where
  var name :=
    if name = "TL_TSA_PROVIDER".toList then .ok provider.name
    else .error .notPresent
  read _ := .ok chainPem

theorem bareHost_asked (chainPem : List UInt8) :
    Asked (bareHost sectigo chainPem) sectigo where
  known := .inl rfl
  named := by
    simp only [bareHost, if_true]

theorem bareHost_init (chainPem : List UInt8) :
    init (bareHost sectigo chainPem) = .ok (.qualified .new) := by
  rw [init_of_asked (bareHost_asked chainPem)]
  rfl

/-! ## A host with a chain file -/

/-- The file of the fixture, cut inside its block. -/
def cutChain : List UInt8 :=
  testChain.take 100

theorem cutChain_ne_test : cutChain ≠ testChain := by
  decide +kernel

theorem cutChain_ne_other : cutChain ≠ otherChain := by
  decide +kernel

/-- Where the chain file is. -/
def chainFile : Str :=
  "/etc/trustlayer/chain.pem".toList

/-- The environment names the endpoint and the only file there is. -/
def fileHost (provider : Provider) (chainPem : List UInt8) : Host where
  var name :=
    if name = "TL_TSA_PROVIDER".toList then .ok provider.name
    else if name = provider.urlVar then .ok provider.defaultEndpoint
    else if name = provider.chainVar then .ok chainFile
    else .error .notPresent
  read path :=
    if path = chainFile then .ok chainPem
    else .error "No such file or directory (os error 2)".toList

theorem fileHost_asked {provider : Provider}
    (known : provider = sectigo ∨ provider = digicert)
    (chainPem : List UInt8) : Asked (fileHost provider chainPem) provider where
  known := known
  named := by
    simp only [fileHost, if_true]

theorem fileHost_read (provider : Provider) (chainPem : List UInt8) :
    (fileHost provider chainPem).read chainFile = .ok chainPem := by
  simp only [fileHost, if_true]

theorem fileHost_init {provider : Provider}
    (known : provider = sectigo ∨ provider = digicert)
    (chainPem : List UInt8) :
    init (fileHost provider chainPem) = .ok (.qualified .new) := by
  rw [init_of_asked (fileHost_asked known chainPem), Provider.chainPem]
  rcases known with rfl | rfl
  · rw [show sectigo.chainPath (fileHost sectigo chainPem) = chainFile from rfl,
      fileHost_read]
    rfl
  · rw [show digicert.chainPath (fileHost digicert chainPem) = chainFile from rfl,
      fileHost_read]
    rfl

section

attribute [local instance] plainTables recordedCms recordedX509

theorem not_pins_cutChain : ¬ Pins cutChain := by
  apply not_pins_of_unread
  intro _ block read
  have refused : recordedX509.parseX509Pem cutChain = .error [] :=
    (if_neg cutChain_ne_test).trans (if_neg cutChain_ne_other)
  rw [refused] at read
  cases read

/-- With the chain cut short, the client is the one of Sectigo and not the one
of DigiCert. -/
theorem cutChain_configured :
    Configured defaultSectigoEndpoint cutChain (.qualified .new) ∧
      ¬ Configured defaultDigicertEndpoint cutChain (.qualified .new) := by
  constructor
  · obtain ⟨chainPem, read, configured⟩ :=
      init_configured_iff (fileHost_asked (.inl rfl) cutChain)
        (fileHost_init (.inl rfl) cutChain)
    obtain rfl := Except.ok.inj ((fileHost_read _ cutChain).symm.trans read)
    exact configured.mpr ⟨rfl, not_pins_cutChain⟩
  · obtain ⟨chainPem, read, configured⟩ :=
      init_configured_iff (fileHost_asked (.inr rfl) cutChain)
        (fileHost_init (.inr rfl) cutChain)
    obtain rfl := Except.ok.inj ((fileHost_read _ cutChain).symm.trans read)
    intro matched
    exact absurd (configured.mp matched).1 (by decide)

/-- The client takes no token, though the chain that is configured has one. -/
theorem testChain_not_configures : ¬ InitConfigures := by
  intro configures
  have accepted := recorded_accepted (validateChainPem_eq_ok_iff.mpr
    ⟨[testX509], testChain_chain, List.cons_ne_nil _ _⟩)
  have configured := configures (bareHost sectigo testChain) sectigo
    (.qualified .new) testChain (bareHost_asked testChain)
    (bareHost_init testChain) rfl
  exact (configured_new_iff.mp configured).2 ⟨testToken, testDigest, accepted⟩

end

end TrustLayer.TlEvidence
