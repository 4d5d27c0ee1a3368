import TrustLayer.Library.Listing
import TrustLayer.Library.Runs
import TrustLayer.Notary.Envelope

/-!
# Notarization

A call first looks for a certificate of its content among the newest
certificates of its submitter.  A certificate that has left this window is not
found again.
-/

namespace TrustLayer.Notary

open TrustLayer.Library

class Sha256 where
  hash : List UInt8 → Vector UInt8 32

/-! ## Records -/

/-- The wall clock in microseconds, and the offset of an aware `datetime`. -/
structure DateTime where
  wall : Int
  offset : Option Int
  deriving DecidableEq

/-- `datetime.now(UTC)`. -/
def DateTime.utc (micros : Int) : DateTime :=
  { wall := micros, offset := some 0 }

/-- `_parse_dt` of a `datetime`. -/
def parseDt (value : DateTime) : DateTime :=
  { value with offset := none }

structure TsaAnswer where
  tokenB64 : Option Str
  url : Option Str
  fetchedAt : Option DateTime
  deriving DecidableEq

structure ScittAnswer where
  rekorEntryId : Option Str
  rekorLogId : Option Str
  tsaUrl : Option Str
  deriving DecidableEq

/-- The dictionary `cert_record`. -/
structure CertRecord where
  certId : Str
  contentHash : Str
  contentType : Str
  aiSystemId : Str
  submittedBy : Str
  submittedAt : DateTime
  notarizedAt : DateTime
  coseSign1B64 : Str
  cwtClaimsJson : Str
  tsa : TsaAnswer
  rekorEntryId : Option Str
  rekorLogId : Option Str
  pdfPath : Option Str
  qrPayload : Str
  metadataJson : Str
  primaryKeyFingerprint : Str
  watermarkResult : Option Json
  deriving DecidableEq

/-- A row of the table `certificates`, whose times are naive. -/
structure CertificateRecord where
  certId : Str
  contentHash : Str
  contentType : Str
  aiSystemId : Str
  submittedBy : Str
  submittedAt : Int
  notarizedAt : Int
  coseSign1B64 : Str
  cwtClaimsJson : Str
  primaryKeyFingerprint : Option Str
  tsaTokenB64 : Option Str
  tsaUrl : Option Str
  tsaFetchedAt : Option Int
  rekorEntryId : Option Str
  rekorLogId : Option Str
  pdfPath : Option Str
  qrPayload : Option Str
  metadataJson : Option Str
  deriving DecidableEq

/-! ## The database -/

def CertRecord.toRow (cert : CertRecord) : CertificateRecord where
  certId := cert.certId
  contentHash := cert.contentHash
  contentType := cert.contentType
  aiSystemId := cert.aiSystemId
  submittedBy := cert.submittedBy
  submittedAt := (parseDt cert.submittedAt).wall
  notarizedAt := (parseDt cert.notarizedAt).wall
  coseSign1B64 := cert.coseSign1B64
  cwtClaimsJson := cert.cwtClaimsJson
  primaryKeyFingerprint := some cert.primaryKeyFingerprint
  tsaTokenB64 := cert.tsa.tokenB64
  tsaUrl := cert.tsa.url
  tsaFetchedAt := cert.tsa.fetchedAt.map fun fetched => (parseDt fetched).wall
  rekorEntryId := cert.rekorEntryId
  rekorLogId := cert.rekorLogId
  pdfPath := cert.pdfPath
  qrPayload := some cert.qrPayload
  metadataJson := some cert.metadataJson

/-- The primary key is the only uniqueness that the table declares. -/
def saveCertificate (rows : List CertificateRecord) (cert : CertRecord) :
    Option (List CertificateRecord) :=
  if rows.any fun row => row.certId = cert.certId then none
  else some (rows ++ [cert.toRow])

def getCertificate (rows : List CertificateRecord) (certId : Str) :
    Option CertificateRecord :=
  rows.find? fun row => row.certId = certId

/-- What `list_certificates(submitted_by, limit)` may return. -/
def Lists (rows : List CertificateRecord) (submittedBy : Str) (limit : Nat)
    (listed : List CertificateRecord) : Prop :=
  IsListing CertificateRecord.notarizedAt limit
    (rows.filter fun row => row.submittedBy = submittedBy) listed

/-! ## The call -/

structure NotarizeArgs where
  contentHash : Str
  contentType : Str
  aiSystemId : Str
  submittedBy : Str
  submittedAt : DateTime
  metadata : Dict
  tokenIds : List Int
  vocabSize : Option Int
  deriving DecidableEq

/-- What the services around a call answer. -/
structure Environment where
  uuidHex : Str
  now : Int
  timestamp : Str → TsaAnswer
  submit : Str → ScittAnswer
  /-- `none` where the detection raises. -/
  kirchenbauerDetect : List Int → Int → Option Json
  /-- `none` where the generation raises. -/
  generate : CertRecord → Option Str

def removeprefix (front text : Str) : Str :=
  (stripPrefix front text).getD text

def defaultVocabSize : Int := 50257

def generateCertId [Sha256] (uuidHex contentHash submittedBy : Str) : Str :=
  let fullKey := submittedBy ++ ':' :: contentHash
  let digest := (toHex (Sha256.hash (utf8Bytes fullKey)).toList).take 8
  "cert_".toList ++ uuidHex.take 8 ++ '_' :: digest

def watermarkResult (env : Environment) (args : NotarizeArgs) : Option Json :=
  if args.tokenIds ≠ [] then
    let vocabSize :=
      match args.vocabSize with
      | none | some 0 => defaultVocabSize
      | some size => size
    env.kirchenbauerDetect args.tokenIds vocabSize
  else none

/-! ## One certificate of a pair -/

def CertificateRecord.pair (row : CertificateRecord) : Str × Str :=
  (row.contentHash, row.submittedBy)

def NotarizeArgs.pair (args : NotarizeArgs) : Str × Str :=
  (args.contentHash, args.submittedBy)

theorem pair_eq_iff {row : CertificateRecord} {args : NotarizeArgs} :
    row.pair = args.pair ↔ row.contentHash = args.contentHash ∧
      row.submittedBy = args.submittedBy :=
  Prod.ext_iff

/-- The primary key: no two rows have one id. -/
def UniqueIds (rows : List CertificateRecord) : Prop :=
  (rows.map CertificateRecord.certId).Nodup

def OnePerPair (rows : List CertificateRecord) : Prop :=
  (rows.map CertificateRecord.pair).Nodup

/-- At most 100 certificates of the submitter are as new as the certificate
of the pair, itself among them. -/
def InWindow (rows : List CertificateRecord) (args : NotarizeArgs) : Prop :=
  ∀ row ∈ rows, row.pair = args.pair →
    rank CertificateRecord.notarizedAt
      (rows.filter fun other => other.submittedBy = args.submittedBy) row ≤ 100

theorem getCertificate_of_mem {rows : List CertificateRecord}
    (ids : UniqueIds rows) {row : CertificateRecord} (member : row ∈ rows) :
    getCertificate rows row.certId = some row := by
  cases got : getCertificate rows row.certId with
  | none =>
      have missing := List.find?_eq_none.mp got row member
      simp at missing
  | some other =>
      have same : other.certId = row.certId := by
        simpa using List.find?_some got
      rw [List.inj_on_of_nodup_map ids (List.mem_of_find?_eq_some got) member
        same]

theorem saveCertificate_eq_some_iff {rows saved : List CertificateRecord}
    {cert : CertRecord} :
    saveCertificate rows cert = some saved ↔
      (∀ row ∈ rows, row.certId ≠ cert.certId) ∧
        saved = rows ++ [cert.toRow] := by
  by_cases taken : rows.any fun row => row.certId = cert.certId
  · rw [saveCertificate, if_pos taken]
    simpa using fun free => absurd taken (by simpa using free)
  · rw [saveCertificate, if_neg taken]
    have fresh : ∀ row ∈ rows, row.certId ≠ cert.certId := by
      simpa using taken
    rw [Option.some.injEq]
    exact ⟨fun same => ⟨fresh, same.symm⟩, fun both => both.2.symm⟩

theorem UniqueIds.append {rows : List CertificateRecord} (ids : UniqueIds rows)
    {cert : CertRecord} (fresh : ∀ row ∈ rows, row.certId ≠ cert.certId) :
    UniqueIds (rows ++ [cert.toRow]) := by
  simp only [UniqueIds, List.map_append, List.map_cons, List.map_nil]
  refine List.nodup_append.mpr ⟨ids, List.nodup_singleton _, ?_⟩
  intro certId member other inSingleton
  obtain ⟨row, inTable, rfl⟩ := List.mem_map.mp member
  rw [List.mem_singleton.mp inSingleton]
  exact fresh row inTable

theorem OnePerPair.append {rows : List CertificateRecord}
    (pairs : OnePerPair rows) {new : CertificateRecord}
    (fresh : ∀ row ∈ rows, row.pair ≠ new.pair) :
    OnePerPair (rows ++ [new]) := by
  simp only [OnePerPair, List.map_append, List.map_cons, List.map_nil]
  refine List.nodup_append.mpr ⟨pairs, List.nodup_singleton _, ?_⟩
  intro pair member other inSingleton
  obtain ⟨row, inTable, rfl⟩ := List.mem_map.mp member
  rw [List.mem_singleton.mp inSingleton]
  exact fresh row inTable

/-- In the window, a certificate of the pair is always listed. -/
theorem exists_listed {rows existing : List CertificateRecord}
    {args : NotarizeArgs} (listed : Lists rows args.submittedBy 100 existing)
    (window : InWindow rows args) {row : CertificateRecord}
    (member : row ∈ rows) (same : row.pair = args.pair) : row ∈ existing := by
  exact listed.mem_of_rank
    (List.mem_filter.mpr ⟨member, by simpa using (pair_eq_iff.mp same).2⟩)
    (window row member same)

section

variable [Sha256]

/-- Everything of `notarize` between the listing and the saving. -/
def certRecord (service : NotaryServiceProduction) (args : NotarizeArgs)
    (env : Environment) : CertRecord :=
  let certId := generateCertId env.uuidHex args.contentHash args.submittedBy
  let signed := service.coseSign1
    { certId, contentHash := args.contentHash, contentType := args.contentType
      aiSystemId := args.aiSystemId, submittedBy := args.submittedBy
      notarizedAt := env.now }
  let rawHash := removeprefix "blake3:".toList
    ( removeprefix "sha256:".toList args.contentHash)
  let scitt := env.submit signed.coseSign1B64
  let unprinted : CertRecord :=
    { certId
      contentHash := args.contentHash
      contentType := args.contentType
      aiSystemId := args.aiSystemId
      submittedBy := args.submittedBy
      submittedAt := args.submittedAt
      notarizedAt := .utc env.now
      coseSign1B64 := signed.coseSign1B64
      cwtClaimsJson := signed.cwtClaims.dumps true
      tsa := env.timestamp rawHash
      rekorEntryId := scitt.rekorEntryId
      rekorLogId := scitt.rekorLogId
      pdfPath := none
      qrPayload := "apohara.org/verify/".toList ++ certId
      metadataJson := (Json.obj args.metadata).dumps true
      primaryKeyFingerprint := signed.primaryKeyFingerprint
      watermarkResult := watermarkResult env args }
  { unprinted with pdfPath := env.generate unprinted }

inductive Answer where
  | found (row : CertificateRecord)
  | created (cert : CertRecord)
  | raised
  deriving DecidableEq

/-- The loop over the listed certificates. -/
def findExisting (existing : List CertificateRecord) (contentHash : Str) :
    Option CertificateRecord :=
  existing.find? fun cert => cert.contentHash = contentHash

/-- `existing` is what the listing returned; `env` is `none` where a step
between the listing and the saving raises. -/
def notarize (service : NotaryServiceProduction)
    (rows : List CertificateRecord) (args : NotarizeArgs)
    (existing : List CertificateRecord) (env : Option Environment) :
    Answer × List CertificateRecord :=
  match findExisting existing args.contentHash with
  | some cert => (.found ((getCertificate rows cert.certId).getD cert), rows)
  | none =>
      match env.map (certRecord service args) with
      | none => (.raised, rows)
      | some cert =>
          match saveCertificate rows cert with
          | none => (.raised, rows)
          | some rows => (.created cert, rows)

def Answer.certId : Answer → Option Str
  | .found row => some row.certId
  | .created cert => some cert.certId
  | .raised => none

theorem certRecord_pair (service : NotaryServiceProduction)
    (args : NotarizeArgs) (env : Environment) :
    (certRecord service args env).toRow.pair = args.pair := rfl

/-- What a call can do: it finds a listed certificate of its pair, or there is
none and it raises or saves one. -/
theorem notarize_cases (service : NotaryServiceProduction)
    {rows existing : List CertificateRecord} {args : NotarizeArgs}
    (ids : UniqueIds rows) (listed : Lists rows args.submittedBy 100 existing)
    (env : Option Environment) :
    (∃ row ∈ existing, row ∈ rows ∧ row.pair = args.pair ∧
      notarize service rows args existing env = (.found row, rows)) ∨
    ((∀ row ∈ existing, row.pair ≠ args.pair) ∧
      (notarize service rows args existing env = (.raised, rows) ∨
        ∃ cert : CertRecord, cert.toRow.pair = args.pair ∧
          (∀ row ∈ rows, row.certId ≠ cert.certId) ∧
          notarize service rows args existing env =
            (.created cert, rows ++ [cert.toRow]))) := by
  cases search : findExisting existing args.contentHash with
  | some cert =>
      have inListing := List.mem_of_find?_eq_some search
      obtain ⟨inTable, submitter⟩ :=
        List.mem_filter.mp (listed.subset inListing)
      have content : cert.contentHash = args.contentHash := by
        simpa using List.find?_some search
      refine .inl ⟨cert, inListing, inTable,
        pair_eq_iff.mpr ⟨content, by simpa using submitter⟩, ?_⟩
      simp [notarize, search, getCertificate_of_mem ids inTable]
  | none =>
      refine .inr ⟨fun row member same => ?_, ?_⟩
      · have other := List.find?_eq_none.mp search row member
        exact other (by simpa using (pair_eq_iff.mp same).1)
      · cases env with
        | none => exact .inl (by simp [notarize, search])
        | some env =>
            cases saved : saveCertificate rows (certRecord service args env) with
            | none => exact .inl (by simp [notarize, search, saved])
            | some after =>
                obtain ⟨fresh, rfl⟩ := saveCertificate_eq_some_iff.mp saved
                exact .inr ⟨certRecord service args env,
                  certRecord_pair service args env, fresh,
                  by simp [notarize, search, saved]⟩

/-! ## Sequential histories -/

/-- A call, what its listing returned and what the services answered. -/
structure Call where
  args : NotarizeArgs
  existing : List CertificateRecord
  env : Option Environment

def answer (service : NotaryServiceProduction) (rows : List CertificateRecord)
    (call : Call) : Answer :=
  (notarize service rows call.args call.existing call.env).1

/-- Calls that follow each other, each on the table the one before left. -/
def step (service : NotaryServiceProduction) (rows : List CertificateRecord)
    (call : Call) : Option (List CertificateRecord) :=
  some (notarize service rows call.args call.existing call.env).2

/-- Every call listed as the database orders and limits, with the certificate
of its pair in the window. -/
def Windowed (before : List CertificateRecord) (call : Call)
    (_ : List CertificateRecord) : Prop :=
  Lists before call.args.submittedBy 100 call.existing ∧
    InWindow before call.args

/-- What a windowed history keeps: the certificates handed out are still in the
table, the only ones of their pairs. -/
structure Kept (rows : List CertificateRecord) : Prop where
  ids : UniqueIds rows
  pairs : OnePerPair rows

/-- A windowed call returns the certificate of its pair, which stays in the
table with all others. -/
theorem windowed_step {service : NotaryServiceProduction}
    {before after : List CertificateRecord} {call : Call} (kept : Kept before)
    (happens : step service before call = some after)
    (windowed : Windowed before call after) :
    Kept after ∧ before ⊆ after ∧
      ∀ certId ∈ (answer service before call).certId,
        ∃ row ∈ after, row.pair = call.args.pair ∧ row.certId = certId := by
  obtain ⟨listed, window⟩ := windowed
  obtain rfl := Option.some.inj happens
  rcases notarize_cases service kept.ids listed call.env with
    ⟨row, -, member, same, result⟩ | ⟨noneListed, raised | created⟩
  · rw [answer, result]
    refine ⟨kept, List.Subset.refl _, ?_⟩
    rintro certId ⟨⟩
    exact ⟨row, member, same, rfl⟩
  · rw [answer, raised]
    exact ⟨kept, List.Subset.refl _, by rintro certId ⟨⟩⟩
  · obtain ⟨cert, same, fresh, result⟩ := created
    have absent : ∀ row ∈ before, row.pair ≠ cert.toRow.pair := by
      intro row member samePair
      exact noneListed row (exists_listed listed window member
        (samePair.trans same)) (samePair.trans same)
    rw [answer, result]
    refine ⟨⟨kept.ids.append fresh, kept.pairs.append absent⟩,
      List.subset_append_left _ _, ?_⟩
    rintro certId ⟨⟩
    exact ⟨cert.toRow, by simp, same, rfl⟩

/-- A certificate of a windowed history stays the one of its pair. -/
theorem windowed_run {service : NotaryServiceProduction}
    {before after : List CertificateRecord} {calls : List Call}
    (kept : Kept before)
    (windowed : EachStep (step service) Windowed before calls)
    (run : runFrom (step service) before calls = some after) :
    Kept after ∧ before ⊆ after := by
  have keeps : ∀ rows call next, Kept rows ∧ before ⊆ rows →
      step service rows call = some next → Windowed rows call next →
        Kept next ∧ before ⊆ next := by
    rintro rows call next ⟨kept, subset⟩ happens windowed
    obtain ⟨keptNext, grows, -⟩ := windowed_step kept happens windowed
    exact ⟨keptNext, List.Subset.trans subset grows⟩
  have final := EachStep.keeps keeps ⟨kept, List.Subset.refl _⟩ windowed run
  exact final

omit [Sha256] in
theorem kept_nil : Kept [] :=
  ⟨List.nodup_nil, List.nodup_nil⟩

/-- Whatever the database lists and the services answer, a call creates nothing
and returns the certificate `certId`. -/
def RepeatAnswered (service : NotaryServiceProduction)
    (rows : List CertificateRecord) (args : NotarizeArgs) (certId : Str) :
    Prop :=
  ∀ existing env, Lists rows args.submittedBy 100 existing →
    ∃ row, notarize service rows args existing env = (.found row, rows) ∧
      row.certId = certId

/-- With one certificate of the pair in the table, a repeated call is answered
by it exactly while it is in the window. -/
theorem repeatAnswered_iff_of_kept {service : NotaryServiceProduction}
    {rows : List CertificateRecord} (kept : Kept rows) {args : NotarizeArgs}
    {row : CertificateRecord} (member : row ∈ rows)
    (same : row.pair = args.pair) :
    RepeatAnswered service rows args row.certId ↔ InWindow rows args := by
  have only : ∀ other ∈ rows, other.pair = args.pair → other = row :=
    fun other present samePair => List.inj_on_of_nodup_map kept.pairs present
      member (samePair.trans same.symm)
  constructor
  · intro answered other present samePair
    obtain rfl := only other present samePair
    by_contra wide
    have mine : other ∈ rows.filter
        fun other => other.submittedBy = args.submittedBy :=
      List.mem_filter.mpr ⟨present, by simpa using (pair_eq_iff.mp samePair).2⟩
    obtain ⟨existing, listed, unlisted⟩ := exists_listing_without mine
      (kept.ids.of_map.filter _) (not_le.mp wide)
    obtain ⟨found, result, -⟩ := answered existing none listed
    rcases notarize_cases service kept.ids listed none with
      ⟨row, inListing, inTable, pair, -⟩ | ⟨-, raised | ⟨cert, -, -, created⟩⟩
    · rw [only row inTable pair] at inListing
      exact unlisted inListing
    · rw [raised] at result
      cases result
    · rw [created] at result
      cases result
  · intro window existing env listed
    rcases notarize_cases service kept.ids listed env with
      ⟨found, -, present, samePair, result⟩ | ⟨noneListed, -⟩
    · exact ⟨found, result, by rw [only found present samePair]⟩
    · exact absurd same (noneListed row (exists_listed listed window member same))

/-- In a history whose calls are all windowed, the certificate that a call
returned answers every repetition of it, up to the first that is not windowed
itself. -/
theorem repeatAnswered_iff (service : NotaryServiceProduction)
    {past later : List Call} {first : Call}
    {before rows : List CertificateRecord} {certId : Str} {args : NotarizeArgs}
    (windowed : EachStep (step service) Windowed [] (past ++ first :: later))
    (reached : runFrom (step service) [] past = some before)
    (answered : (answer service before first).certId = some certId)
    (now : runFrom (step service) [] (past ++ first :: later) = some rows)
    (same : args.pair = first.args.pair) :
    RepeatAnswered service rows args certId ↔ InWindow rows args := by
  obtain ⟨windowedPast, windowedRest⟩ := eachStep_append.mp windowed
  obtain ⟨windowedFirst, windowedLater⟩ :=
    windowedRest before reached _ rfl
  have keptBefore := (windowed_run kept_nil windowedPast reached).1
  obtain ⟨keptFirst, -, returned⟩ := windowed_step keptBefore rfl windowedFirst
  rw [runFrom_append, reached, Option.bind_some, runFrom] at now
  obtain ⟨kept, stays⟩ := windowed_run keptFirst windowedLater now
  obtain ⟨row, member, pair, rfl⟩ := returned certId answered
  exact repeatAnswered_iff_of_kept kept (stays member) (pair.trans same.symm)

/-- Idempotence, whatever was notarized in between. -/
def Idempotent (service : NotaryServiceProduction) : Prop :=
  ∀ past first later before rows certId args,
    EachStep (step service)
      (fun before call _ =>
        Lists before call.args.submittedBy 100 call.existing)
      [] (past ++ first :: later) →
    runFrom (step service) [] past = some before →
    (answer service before first).certId = some certId →
    runFrom (step service) [] (past ++ first :: later) = some rows →
    args.pair = first.args.pair → RepeatAnswered service rows args certId

/-! ## A submitter of many contents -/

/-- The `number`th content of one submitter. -/
def numberedArgs (number : Nat) : NotarizeArgs where
  contentHash := "sha256:".toList ++ List.replicate number '0'
  contentType := "text".toList
  aiSystemId := "deepseek-v4-flash".toList
  submittedBy := "acme".toList
  submittedAt := .utc 0
  metadata := []
  tokenIds := []
  vocabSize := none

/-- Degraded services, one microsecond after the call before. -/
def numberedEnv (number : Nat) : Environment where
  uuidHex := toHex (UInt8.ofNat number :: List.replicate 15 0)
  now := number
  timestamp := fun _ => { tokenB64 := none, url := none, fetchedAt := none }
  submit := fun _ => { rekorEntryId := none, rekorLogId := none, tsaUrl := none }
  kirchenbauerDetect := fun _ _ => none
  generate := fun _ => none

def numberedRow (number : Nat) : CertificateRecord :=
  (certRecord devService (numberedArgs number) (numberedEnv number)).toRow

def numberedRows (count : Nat) : List CertificateRecord :=
  (List.range count).map numberedRow

/-- Each call lists the whole table, newest first. -/
def numberedCall (number : Nat) : Call where
  args := numberedArgs number
  existing := (numberedRows number).reverse
  env := some (numberedEnv number)

theorem numberedRow_submittedBy (number : Nat) :
    (numberedRow number).submittedBy = "acme".toList := rfl

theorem numberedRow_notarizedAt (number : Nat) :
    (numberedRow number).notarizedAt = number := rfl

omit [Sha256] in
theorem numberedArgs_pair_inj {left right : Nat}
    (same : (numberedArgs left).pair = (numberedArgs right).pair) :
    left = right := by
  have hashes : (numberedArgs left).contentHash =
      (numberedArgs right).contentHash := (Prod.ext_iff.mp same).1
  have zeros := List.append_cancel_left hashes
  simpa using congrArg List.length zeros

omit [Sha256] in
theorem numberedEnv_uuidHex (number : Nat) :
    (numberedEnv number).uuidHex.take 8 =
      toHex [UInt8.ofNat number, 0, 0, 0] := rfl

/-- Calls with different answers for `uuid4` never share an id. -/
theorem certRecord_certId_inj {first second : NotarizeArgs} {left right : Nat}
    (leftSmall : left < 256) (rightSmall : right < 256)
    (same : (certRecord devService first (numberedEnv left)).certId =
      (certRecord devService second (numberedEnv right)).certId) :
    left = right := by
  change generateCertId _ _ _ = generateCertId _ _ _ at same
  unfold generateCertId at same
  simp only [numberedEnv_uuidHex, List.append_assoc] at same
  have uuids := (List.append_inj (List.append_cancel_left same)
    (by simp [toHex_length])).1
  have bytes := (List.cons.inj (toHex_injective uuids)).1
  have numbers := congrArg UInt8.toNat bytes
  simp only [UInt8.toNat_ofNat'] at numbers
  omega

/-- Every content of the series is new when its call lists. -/
theorem numberedCall_creates {number : Nat} (small : number < 256) :
    notarize devService (numberedRows number) (numberedArgs number)
        (numberedRows number).reverse (some (numberedEnv number)) =
      (.created (certRecord devService (numberedArgs number)
        (numberedEnv number)), numberedRows (number + 1)) := by
  have absent : findExisting (numberedRows number).reverse
      (numberedArgs number).contentHash = none := by
    refine List.find?_eq_none.mpr fun row member => ?_
    simp only [List.mem_reverse, numberedRows, List.mem_map,
      List.mem_range] at member
    obtain ⟨earlier, before, rfl⟩ := member
    intro same
    have pairs : (numberedArgs earlier).pair = (numberedArgs number).pair :=
      Prod.ext (of_decide_eq_true same) rfl
    exact absurd (numberedArgs_pair_inj pairs) before.ne
  have saved : saveCertificate (numberedRows number)
      (certRecord devService (numberedArgs number) (numberedEnv number)) =
        some (numberedRows (number + 1)) := by
    refine saveCertificate_eq_some_iff.mpr ⟨fun row member same => ?_, ?_⟩
    · simp only [numberedRows, List.mem_map, List.mem_range] at member
      obtain ⟨earlier, before, rfl⟩ := member
      exact absurd (certRecord_certId_inj (before.trans small) small same)
        before.ne
    · simp [numberedRows, List.range_succ, numberedRow]
  simp [notarize, absent, saved]

theorem numberedRun {count : Nat} (small : count ≤ 256) :
    runFrom (step devService) [] ((List.range count).map numberedCall) =
      some (numberedRows count) := by
  induction count with
  | zero => rfl
  | succ count induction =>
      rw [List.range_succ, List.map_append, runFrom_append,
        induction (by omega), Option.bind_some]
      simp [runFrom, step, numberedCall,
        numberedCall_creates (show count < 256 by omega)]

theorem numberedRows_mine (count : Nat) :
    (numberedRows count).filter (fun row => row.submittedBy = "acme".toList) =
      numberedRows count := by
  refine List.filter_eq_self.mpr fun row member => ?_
  obtain ⟨number, -, rfl⟩ := List.mem_map.mp member
  simp [numberedRow_submittedBy]

/-- The calls behind the first. -/
def laterCalls (count : Nat) : List Call :=
  (List.range count).map fun number => numberedCall (number + 1)

theorem numberedCalls_succ (count : Nat) :
    (List.range (count + 1)).map numberedCall =
      [] ++ numberedCall 0 :: laterCalls count := by
  simp [List.range_succ_eq_map, laterCalls, Function.comp_def]

theorem firstCall_answer :
    (answer devService [] (numberedCall 0)).certId =
      some (numberedRow 0).certId := by
  have creates := numberedCall_creates (show 0 < 256 by decide)
  exact congrArg (fun result => result.1.certId) creates

/-- The whole table is the listing while it has at most 100 rows. -/
theorem numberedRows_listed {count : Nat} (few : count ≤ 100) :
    Lists (numberedRows count) "acme".toList 100 (numberedRows count).reverse := by
  rw [Lists, numberedRows_mine]
  refine ⟨(numberedRows count).reverse, List.reverse_perm _, ?_, ?_⟩
  · rw [List.pairwise_reverse, numberedRows, List.pairwise_map]
    refine List.pairwise_lt_range.imp fun before => ?_
    simp only [numberedRow_notarizedAt]
    omega
  · rw [List.take_of_length_le]
    simpa [numberedRows] using few

theorem numberedRun_windowed {count : Nat} (few : count ≤ 101) :
    EachStep (step devService) Windowed []
      ((List.range count).map numberedCall) := by
  induction count with
  | zero => trivial
  | succ count induction =>
      rw [List.range_succ, List.map_append]
      refine eachStep_append.mpr ⟨induction (by omega), ?_⟩
      intro middle reached next _
      rw [numberedRun (by omega)] at reached
      obtain rfl := Option.some.inj reached
      refine ⟨⟨numberedRows_listed (by omega), ?_⟩, trivial⟩
      intro row member same
      obtain ⟨earlier, before, rfl⟩ := List.mem_map.mp member
      have pairs : (numberedArgs earlier).pair = (numberedArgs count).pair :=
        same
      rw [numberedArgs_pair_inj pairs] at before
      exact absurd (List.mem_range.mp before) (Nat.lt_irrefl _)

/-- The first content is as old as the whole table. -/
theorem numberedRows_rank (count : Nat) :
    rank CertificateRecord.notarizedAt
      ((numberedRows count).filter
        fun other => other.submittedBy = (numberedArgs 0).submittedBy)
      (numberedRow 0) = count := by
  have mine : (numberedRows count).filter
      (fun other => other.submittedBy = (numberedArgs 0).submittedBy) =
        numberedRows count :=
    numberedRows_mine count
  have older : ∀ row ∈ numberedRows count,
      (numberedRow 0).notarizedAt ≤ row.notarizedAt := by
    intro row member
    obtain ⟨number, -, rfl⟩ := List.mem_map.mp member
    simp [numberedRow_notarizedAt]
  rw [mine, rank, List.countP_eq_length.mpr (by simpa using older)]
  simp [numberedRows]

theorem numberedRows_inWindow_iff {count : Nat} (nonempty : 0 < count) :
    InWindow (numberedRows count) (numberedArgs 0) ↔ count ≤ 100 := by
  constructor
  · intro window
    have first : numberedRow 0 ∈ numberedRows count :=
      List.mem_map.mpr ⟨0, List.mem_range.mpr nonempty, rfl⟩
    exact numberedRows_rank count ▸ window _ first rfl
  · intro few row member same
    obtain ⟨number, -, rfl⟩ := List.mem_map.mp member
    obtain rfl := numberedArgs_pair_inj same
    exact (numberedRows_rank count).le.trans few

end

/-- Up to 100 contents, and no further, the certificate of the first answers
its repetition, whatever the digests in the ids. -/
theorem hundredContents_answered :
    (∀ sha : Sha256, @RepeatAnswered sha devService (@numberedRows sha 100)
        (numberedArgs 0) (@numberedRow sha 0).certId) ∧
      ∀ sha : Sha256, ¬ @RepeatAnswered sha devService (@numberedRows sha 101)
        (numberedArgs 0) (@numberedRow sha 0).certId := by
  constructor
  · intro sha
    have windowed := @numberedRun_windowed sha _ (show 99 + 1 ≤ 101 by decide)
    have run := @numberedRun sha _ (show 99 + 1 ≤ 256 by decide)
    rw [numberedCalls_succ] at windowed run
    exact (repeatAnswered_iff devService windowed rfl firstCall_answer run
      rfl).mpr ((numberedRows_inWindow_iff (by decide)).mpr (by decide))
  · intro sha answered
    have windowed := @numberedRun_windowed sha _ (show 100 + 1 ≤ 101 by decide)
    have run := @numberedRun sha _ (show 100 + 1 ≤ 256 by decide)
    rw [numberedCalls_succ] at windowed run
    have window := (repeatAnswered_iff devService windowed rfl firstCall_answer
      run rfl).mp answered
    exact absurd ((numberedRows_inWindow_iff (by decide)).mp window) (by decide)

/-- After 100 other contents, the first one is certified again. -/
theorem hundredFirstContent_certifiedTwice :
    ¬ ∃ sha : Sha256, @Idempotent sha devService := by
  rintro ⟨sha, idempotent⟩
  have windowed := @numberedRun_windowed sha _ (show 100 + 1 ≤ 101 by decide)
  have run := @numberedRun sha _ (show 100 + 1 ≤ 256 by decide)
  have kept := (windowed_run kept_nil windowed run).1
  have listed : EachStep (step devService)
      (fun before call _ =>
        Lists before call.args.submittedBy 100 call.existing)
      [] ((List.range (100 + 1)).map numberedCall) :=
    windowed.mono fun _ _ _ lists => lists.1
  rw [numberedCalls_succ] at listed run
  have answered := idempotent [] (numberedCall 0) (laterCalls 100) []
    (numberedRows (100 + 1)) _ (numberedArgs 0) listed rfl firstCall_answer run
    rfl
  have first : numberedRow 0 ∈ numberedRows (100 + 1) :=
    List.mem_map.mpr ⟨0, List.mem_range.mpr (by decide), rfl⟩
  have window := (repeatAnswered_iff_of_kept kept first rfl).mp answered
  exact absurd ((numberedRows_inWindow_iff (by decide)).mp window) (by decide)

end TrustLayer.Notary
