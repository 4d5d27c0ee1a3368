import TrustLayer.Library.Datetime
import TrustLayer.Library.Listing
import TrustLayer.Library.Runs

/-!
# The times of stored certificates

The table keeps naive times that are read as UTC.  What is saved there is the
wall clock of a time, whatever its offset.
-/

namespace TrustLayer.Notary.Db

open TrustLayer.Library

/-! ## Times -/

/-- A time as a caller gives it. -/
inductive TimeValue where
  | datetime (value : Datetime)
  | text (value : Str)
  deriving DecidableEq

/-- `value.replace("Z", "+00:00")`. -/
def replaceZ (text : Str) : Str :=
  text.flatMap fun char => if char = 'Z' then "+00:00".toList else [char]

namespace TimeValue

/-- The time that a caller gives, `none` where the text is none. -/
def read : TimeValue → Option Datetime
  | .datetime value => some value
  | .text value => Datetime.fromisoformat (replaceZ value)

/-- `if value`. -/
def truthy : TimeValue → Bool
  | .datetime _ => true
  | .text value => value ≠ []

/-- The offset of an aware time. -/
def offset (value : TimeValue) : Option UtcOffset :=
  value.read.bind Datetime.offset

/-- The instant of an aware time, in microseconds of UTC. -/
def instant (value : TimeValue) : Option Int := do
  let datetime ← value.read
  let offset ← datetime.offset
  pure (datetime.naive.wall - offset.micros)

end TimeValue

/-- `_parse_dt`, `none` where it raises `ValueError`. -/
def parseDt : TimeValue → Option Naive
  | .datetime value => some value.naive
  | .text value =>
      (Datetime.fromisoformat (replaceZ value)).map Datetime.naive

/-- A naive time as UTC. -/
def utcInstant (naive : Naive) : Int :=
  naive.wall

/-- The instant of a returned text, which is UTC where it has no offset. -/
def returnedInstant (text : Str) : Option Int :=
  (Datetime.fromisoformat text).map fun datetime =>
    utcInstant datetime.naive - (datetime.offset.map UtcOffset.micros).getD 0

/-! ## Certificates -/

/-- The columns that are copied as they are. -/
structure Columns where
  certId : Str
  contentHash : Str
  contentType : Str
  aiSystemId : Str
  submittedBy : Str
  coseSign1B64 : Str
  cwtClaimsJson : Str
  primaryKeyFingerprint : Option Str
  tsaTokenB64 : Option Str
  tsaUrl : Option Str
  rekorEntryId : Option Str
  rekorLogId : Option Str
  rekorEntryJson : Option Str
  pdfPath : Option Str
  qrPayload : Option Str
  metadataJson : Option Str
  deriving DecidableEq

/-- A certificate with times of a type: what is saved, a row of the table, and
what is returned. -/
structure Certificate (τ : Type) where
  columns : Columns
  submittedAt : τ
  notarizedAt : τ
  tsaFetchedAt : Option τ
  deriving DecidableEq

abbrev CertificateRecord : Type :=
  Certificate Naive

namespace Certificate

def times {τ : Type} (cert : Certificate τ) : List τ :=
  cert.submittedAt :: cert.notarizedAt :: cert.tsaFetchedAt.toList

/-- A time of fetching that is no time is left out. -/
def dated (cert : Certificate TimeValue) : Certificate TimeValue :=
  { cert with tsaFetchedAt := cert.tsaFetchedAt.filter TimeValue.truthy }

/-- The time of fetching, `none` where it raises. -/
def parseFetched : Option TimeValue → Option (Option Naive)
  | none => some none
  | some fetched => (parseDt fetched).map some

def toRecord (cert : Certificate TimeValue) : Option CertificateRecord := do
  let submittedAt ← parseDt cert.submittedAt
  let notarizedAt ← parseDt cert.notarizedAt
  let tsaFetchedAt ← parseFetched cert.dated.tsaFetchedAt
  pure { columns := cert.columns, submittedAt, notarizedAt, tsaFetchedAt }

end Certificate

def isoformat (naive : Naive) : Str :=
  Datetime.isoformat { naive, offset := none }

def rowToDict (row : CertificateRecord) : Certificate Str :=
  { columns := row.columns
    submittedAt := isoformat row.submittedAt
    notarizedAt := isoformat row.notarizedAt
    tsaFetchedAt := row.tsaFetchedAt.map isoformat }

/-! ## The database -/

/-- The primary key is the only uniqueness that the table declares; `none`
where the call raises. -/
def saveCertificate (rows : List CertificateRecord)
    (cert : Certificate TimeValue) : Option (List CertificateRecord) := do
  let row ← cert.toRecord
  if rows.any fun other => other.columns.certId = row.columns.certId then none
  else some (rows ++ [row])

def getCertificate (rows : List CertificateRecord) (certId : Str) :
    Option (Certificate Str) :=
  (rows.find? fun row => row.columns.certId = certId).map rowToDict

/-- What `list_certificates(submitted_by, limit)` may return. -/
def Lists (rows : List CertificateRecord) (submittedBy : Option Str)
    (limit : Nat) (listed : List (Certificate Str)) : Prop :=
  ∃ picked, IsListing (fun row => row.notarizedAt.wall) limit
      (rows.filter fun row =>
        submittedBy.all fun submitter => row.columns.submittedBy = submitter)
      picked ∧
    listed = picked.map rowToDict

/-! ## What a run stores -/

section

variable {cert : Certificate TimeValue} {row : CertificateRecord}

theorem parseFetched_spec {given : Option TimeValue} {fetched : Option Naive}
    (parsed : Certificate.parseFetched given = some fetched) :
    given.toList.map parseDt = fetched.toList.map some := by
  cases given with
  | none =>
      cases parsed
      rfl
  | some value =>
      obtain ⟨naive, found, rfl⟩ := Option.map_eq_some_iff.mp parsed
      exact congrArg (fun parsed => [parsed]) found

theorem toRecord_spec (stored : cert.toRecord = some row) :
    row.columns = cert.columns ∧
      parseDt cert.notarizedAt = some row.notarizedAt ∧
      cert.dated.times.map parseDt = row.times.map some := by
  unfold Certificate.toRecord at stored
  simp only [Option.bind_eq_bind, Option.bind_eq_some_iff] at stored
  obtain ⟨submitted, atSubmission, notarized, atNotarization, fetched, atFetch,
    made⟩ := stored
  cases made
  refine ⟨rfl, atNotarization, ?_⟩
  simp only [Certificate.times, List.map_cons, parseFetched_spec atFetch]
  exact congrArg₂ List.cons atSubmission
    (congrArg (List.cons · _) atNotarization)

theorem saveCertificate_eq_some_iff {rows saved : List CertificateRecord} :
    saveCertificate rows cert = some saved ↔
      ∃ row, cert.toRecord = some row ∧
        (∀ other ∈ rows, other.columns.certId ≠ row.columns.certId) ∧
        saved = rows ++ [row] := by
  rw [saveCertificate, Option.bind_eq_bind, Option.bind_eq_some_iff]
  refine exists_congr fun row => and_congr_right fun _ => ?_
  split_ifs with taken
  · refine iff_of_false (by simp) fun both => ?_
    obtain ⟨other, member, same⟩ := List.any_eq_true.mp taken
    exact both.1 other member (of_decide_eq_true same)
  · have fresh : ∀ other ∈ rows, other.columns.certId ≠ row.columns.certId := by
      simpa using taken
    rw [Option.some.injEq]
    exact ⟨fun same => ⟨fresh, same.symm⟩, fun both => both.2.symm⟩

/-- No two rows have one id. -/
def UniqueIds (rows : List CertificateRecord) : Prop :=
  (rows.map fun row => row.columns.certId).Nodup

theorem UniqueIds.append {rows : List CertificateRecord} (ids : UniqueIds rows)
    {row : CertificateRecord}
    (fresh : ∀ other ∈ rows, other.columns.certId ≠ row.columns.certId) :
    UniqueIds (rows ++ [row]) := by
  simp only [UniqueIds, List.map_append, List.map_cons, List.map_nil]
  refine List.nodup_append.mpr ⟨ids, List.nodup_singleton _, ?_⟩
  intro certId member other inSingleton
  obtain ⟨saved, inTable, rfl⟩ := List.mem_map.mp member
  rw [List.mem_singleton.mp inSingleton]
  exact fresh saved inTable

/-- The table a run leaves holds what each call stored, in its order. -/
theorem run_spec {rows saved : List CertificateRecord}
    {certs : List (Certificate TimeValue)} (ids : UniqueIds rows)
    (run : runFrom saveCertificate rows certs = some saved) :
    UniqueIds saved ∧ ∃ new, saved = rows ++ new ∧
      List.Forall₂ (fun cert row => cert.toRecord = some row) certs new := by
  induction certs generalizing rows with
  | nil =>
      cases run
      exact ⟨ids, [], (List.append_nil _).symm, .nil⟩
  | cons cert certs induction =>
      rw [runFrom] at run
      cases moved : saveCertificate rows cert with
      | none => simp [moved] at run
      | some next =>
          rw [moved] at run
          obtain ⟨row, stored, fresh, rfl⟩ :=
            saveCertificate_eq_some_iff.mp moved
          obtain ⟨unique, new, rfl, each⟩ := induction (ids.append fresh) run
          exact ⟨unique, row :: new, by simp, .cons stored each⟩

end

/-! ## Instants -/

/-- Every time of the certificate is aware. -/
def Certificate.Aware (cert : Certificate TimeValue) : Prop :=
  ∀ value ∈ cert.dated.times, value.offset.isSome

instance (cert : Certificate TimeValue) : Decidable cert.Aware :=
  inferInstanceAs (Decidable (∀ value ∈ cert.dated.times, value.offset.isSome))

/-- Every time of the certificate is in UTC. -/
def Certificate.Utc (cert : Certificate TimeValue) : Prop :=
  ∀ value ∈ cert.dated.times, value.offset = some .zero

instance (cert : Certificate TimeValue) : Decidable cert.Utc :=
  inferInstanceAs
    (Decidable (∀ value ∈ cert.dated.times, value.offset = some .zero))

/-- What is stored for a time is its instant in UTC. -/
def StoresInstant (value : TimeValue) : Prop :=
  ∃ naive, parseDt value = some naive ∧ value.instant = some (utcInstant naive)

/-- The certificates keep their instants in the table. -/
structure KeepsInstants (certs : List (Certificate TimeValue))
    (rows : List CertificateRecord) : Prop where
  stored : ∀ cert ∈ certs, ∀ value ∈ cert.dated.times, StoresInstant value
  returned : ∀ cert ∈ certs, ∃ dict,
    getCertificate rows cert.columns.certId = some dict ∧
      dict.times.map returnedInstant = cert.dated.times.map TimeValue.instant
  /-- The newest certificates are listed first. -/
  ordered : ∀ submittedBy limit listed, Lists rows submittedBy limit listed →
    listed.Pairwise fun dict other =>
      ∀ cert ∈ certs, ∀ later ∈ certs,
        cert.columns.certId = dict.columns.certId →
        later.columns.certId = other.columns.certId →
        ∀ instant ∈ cert.notarizedAt.instant,
          ∀ laterInstant ∈ later.notarizedAt.instant, laterInstant ≤ instant

theorem parseDt_eq (value : TimeValue) :
    parseDt value = value.read.map Datetime.naive := by
  cases value <;> rfl

/-- The wall clock of an aware time is its instant only without an offset. -/
theorem storesInstant_iff {value : TimeValue} (aware : value.offset.isSome) :
    StoresInstant value ↔ value.offset = some .zero := by
  obtain ⟨offset, given⟩ := Option.isSome_iff_exists.mp aware
  obtain ⟨datetime, reads, zone⟩ := Option.bind_eq_some_iff.mp given
  have instant : value.instant =
      some (datetime.naive.wall - offset.micros) := by
    simp [TimeValue.instant, reads, zone]
  have zero : offset = .zero ↔ offset.micros = 0 := by
    constructor
    · rintro rfl
      rfl
    · intro none
      obtain ⟨micros, fits⟩ := offset
      subst none
      rfl
  rw [StoresInstant, parseDt_eq, reads, instant, given, Option.some.injEq, zero]
  simp only [Option.map_some, Option.some.injEq, exists_eq_left', utcInstant]
  omega

theorem StoresInstant.instant_eq {value : TimeValue}
    (stores : StoresInstant value) :
    value.instant = (parseDt value).map utcInstant := by
  obtain ⟨naive, parsed, instant⟩ := stores
  rw [instant, parsed]
  rfl

/-- What is returned for a stored time reads as that time in UTC. -/
theorem returnedInstant_isoformat (naive : Naive) :
    returnedInstant (isoformat naive) = some (utcInstant naive) := by
  rw [returnedInstant, isoformat, Datetime.fromisoformat_isoformat]
  simp

theorem rowToDict_times (row : CertificateRecord) :
    (rowToDict row).times.map returnedInstant =
      row.times.map fun naive => some (utcInstant naive) := by
  have fetched : row.tsaFetchedAt.toList.map
      (returnedInstant ∘ isoformat) =
        row.tsaFetchedAt.toList.map fun naive => some (utcInstant naive) :=
    List.map_congr_left fun naive _ => returnedInstant_isoformat naive
  simp only [Certificate.times, rowToDict, List.map_cons,
    returnedInstant_isoformat, Option.toList_map, List.map_map, fetched]

theorem UniqueIds.eq_of_certId_eq {rows : List CertificateRecord}
    (ids : UniqueIds rows) {row other : CertificateRecord} (member : row ∈ rows)
    (otherMember : other ∈ rows)
    (same : row.columns.certId = other.columns.certId) : row = other :=
  List.inj_on_of_nodup_map ids member otherMember same

theorem getCertificate_of_mem {rows : List CertificateRecord}
    (ids : UniqueIds rows) {row : CertificateRecord} (member : row ∈ rows) :
    getCertificate rows row.columns.certId = some (rowToDict row) := by
  rw [getCertificate, Option.map_eq_some_iff]
  cases got : rows.find? fun other =>
      other.columns.certId = row.columns.certId with
  | none =>
      have missing := List.find?_eq_none.mp got row member
      simp at missing
  | some other =>
      have same : other.columns.certId = row.columns.certId := by
        simpa using List.find?_some got
      exact ⟨other, rfl, congrArg rowToDict
        (ids.eq_of_certId_eq (List.mem_of_find?_eq_some got) member same)⟩

section

variable {certs : List (Certificate TimeValue)} {rows : List CertificateRecord}

/-- The certificates of a run and their rows. -/
structure Saved (certs : List (Certificate TimeValue))
    (rows : List CertificateRecord) : Prop where
  ids : UniqueIds rows
  rowOf : ∀ cert ∈ certs, ∃ row ∈ rows, cert.toRecord = some row

theorem saved_of_run (run : runFrom saveCertificate [] certs = some rows) :
    Saved certs rows := by
  have empty : UniqueIds [] := List.nodup_nil
  obtain ⟨ids, new, same, each⟩ := run_spec empty run
  rw [List.nil_append] at same
  subst same
  refine ⟨ids, fun cert member => ?_⟩
  obtain ⟨index, bound, rfl⟩ := List.mem_iff_getElem.mp member
  have inTable : index < rows.length := each.length_eq ▸ bound
  exact ⟨rows[index], List.getElem_mem inTable, each.get bound inTable⟩

theorem returned_of_stored (saved : Saved certs rows)
    {cert : Certificate TimeValue} (member : cert ∈ certs)
    (stored : ∀ value ∈ cert.dated.times, StoresInstant value) :
    ∃ dict, getCertificate rows cert.columns.certId = some dict ∧
      dict.times.map returnedInstant =
        cert.dated.times.map TimeValue.instant := by
  obtain ⟨row, inTable, made⟩ := saved.rowOf cert member
  obtain ⟨columns, -, times⟩ := toRecord_spec made
  refine ⟨rowToDict row, columns ▸ getCertificate_of_mem saved.ids inTable, ?_⟩
  calc (rowToDict row).times.map returnedInstant
    _ = (row.times.map some).map (Option.map utcInstant) := by
      rw [rowToDict_times, List.map_map]
      rfl
    _ = cert.dated.times.map fun value => (parseDt value).map utcInstant := by
      rw [← times, List.map_map]
      rfl
    _ = cert.dated.times.map TimeValue.instant :=
      List.map_congr_left fun value inTimes =>
        (stored value inTimes).instant_eq.symm

/-- The real time of a row that keeps its instant is its column. -/
theorem instant_of_row (saved : Saved certs rows) {cert : Certificate TimeValue}
    (member : cert ∈ certs) {row : CertificateRecord} (inTable : row ∈ rows)
    (same : cert.columns.certId = row.columns.certId)
    (stored : ∀ value ∈ cert.dated.times, StoresInstant value) :
    cert.notarizedAt.instant = some (utcInstant row.notarizedAt) := by
  obtain ⟨own, ownInTable, made⟩ := saved.rowOf cert member
  obtain ⟨columns, notarized, -⟩ := toRecord_spec made
  rw [← columns] at same
  obtain rfl := saved.ids.eq_of_certId_eq ownInTable inTable same
  have notarizedTime : cert.notarizedAt ∈ cert.dated.times :=
    List.mem_cons_of_mem _ List.mem_cons_self
  rw [(stored _ notarizedTime).instant_eq, notarized]
  rfl

theorem ordered_of_stored (saved : Saved certs rows)
    (stored : ∀ cert ∈ certs, ∀ value ∈ cert.dated.times, StoresInstant value)
    {submittedBy : Option Str} {limit : Nat} {listed : List (Certificate Str)}
    (lists : Lists rows submittedBy limit listed) :
    listed.Pairwise fun dict other =>
      ∀ cert ∈ certs, ∀ later ∈ certs,
        cert.columns.certId = dict.columns.certId →
        later.columns.certId = other.columns.certId →
        ∀ instant ∈ cert.notarizedAt.instant,
          ∀ laterInstant ∈ later.notarizedAt.instant,
            laterInstant ≤ instant := by
  obtain ⟨picked, listing, rfl⟩ := lists
  have inTable : ∀ row ∈ picked, row ∈ rows := fun row member =>
    List.mem_of_mem_filter (listing.subset member)
  obtain ⟨ordered, -, sorted, rfl⟩ := listing
  refine List.pairwise_map.mpr
    ((sorted.take).imp_of_mem fun member otherMember order => ?_)
  intro cert certMember later laterMember same laterSame
  rw [instant_of_row saved certMember (inTable _ member) same
      (stored cert certMember),
    instant_of_row saved laterMember (inTable _ otherMember) laterSame
      (stored later laterMember)]
  rintro _ ⟨⟩ _ ⟨⟩
  exact Int.ofNat_le.mpr order

/-- The instants of aware times are kept exactly where all are in UTC. -/
theorem keepsInstants_iff (run : runFrom saveCertificate [] certs = some rows)
    (aware : ∀ cert ∈ certs, cert.Aware) :
    KeepsInstants certs rows ↔ ∀ cert ∈ certs, cert.Utc := by
  constructor
  · intro keeps cert member value inTimes
    exact (storesInstant_iff (aware cert member value inTimes)).mp
      (keeps.stored cert member value inTimes)
  · intro utc
    have stored : ∀ cert ∈ certs, ∀ value ∈ cert.dated.times,
        StoresInstant value := fun cert member value inTimes =>
      (storesInstant_iff (aware cert member value inTimes)).mpr
        (utc cert member value inTimes)
    have saved := saved_of_run run
    exact
      { stored
        returned := fun cert member =>
          returned_of_stored saved member (stored cert member)
        ordered := fun _ _ _ lists => ordered_of_stored saved stored lists }

end

/-! ## Two certificates -/

def sampleColumns (certId : Str) : Columns :=
  { certId
    contentHash := "sha256:00".toList
    contentType := "text/plain".toList
    aiSystemId := "ai-1".toList
    submittedBy := "acme".toList
    coseSign1B64 := []
    cwtClaimsJson := "\x7b\x7d".toList
    primaryKeyFingerprint := none
    tsaTokenB64 := none
    tsaUrl := none
    rekorEntryId := none
    rekorLogId := none
    rekorEntryJson := none
    pdfPath := none
    qrPayload := none
    metadataJson := none }

/-- A certificate notarized when it was submitted. -/
def sampleCertificate (certId : Str) (time : TimeValue) :
    Certificate TimeValue :=
  { columns := sampleColumns certId
    submittedAt := time
    notarizedAt := time
    tsaFetchedAt := some (.text []) }

/-- Nine o'clock in UTC, as a `datetime`. -/
def nineUtc : TimeValue :=
  .datetime
    ((Datetime.fromisoformat "2026-01-01T09:00:00+00:00".toList).get
      (by decide))

/-- Half past four in UTC. -/
def tenInKolkata : TimeValue :=
  .text "2026-01-01T10:00:00+05:30".toList

def utcCertificates : List (Certificate TimeValue) :=
  [sampleCertificate "cert_a".toList (.text "2026-01-01T04:30:00Z".toList),
    sampleCertificate "cert_b".toList nineUtc]

def offsetCertificates : List (Certificate TimeValue) :=
  [sampleCertificate "cert_a".toList tenInKolkata,
    sampleCertificate "cert_b".toList nineUtc]

theorem keepsInstants_iff_utcCertificates :
    ∃ rows, runFrom saveCertificate [] utcCertificates = some rows ∧
      KeepsInstants utcCertificates rows := by
  have saves : (runFrom saveCertificate [] utcCertificates).isSome := by decide
  obtain ⟨rows, run⟩ := Option.isSome_iff_exists.mp saves
  exact ⟨rows, run, (keepsInstants_iff run (by decide)).mpr (by decide)⟩

/-- The older certificate is listed first, and its time is returned without
the offset. -/
theorem offsetCertificates_not_keepsInstants :
    ∃ rows, runFrom saveCertificate [] offsetCertificates = some rows ∧
      (∀ cert ∈ offsetCertificates, cert.Aware) ∧
      ((getCertificate rows "cert_a".toList).map Certificate.notarizedAt =
          some "2026-01-01T10:00:00".toList ∧
        Lists rows none 100 (rows.map rowToDict) ∧
        rows.map (fun row => row.columns.certId) =
          ["cert_a".toList, "cert_b".toList]) ∧
      ¬ KeepsInstants offsetCertificates rows := by
  let rows := (runFrom saveCertificate [] offsetCertificates).get (by decide)
  refine ⟨rows, by decide, by decide, ⟨by decide, ?_, by decide⟩, fun keeps => ?_⟩
  · refine ⟨rows, ⟨rows, ?_, by decide, by decide⟩, rfl⟩
    simp
  · have stored := keeps.stored _ List.mem_cons_self tenInKolkata (by decide)
    have utc := (storesInstant_iff (by decide)).mp stored
    exact absurd utc (by decide)

end TrustLayer.Notary.Db
