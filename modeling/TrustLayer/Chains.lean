import TrustLayer.Library.Base64
import TrustLayer.Library.Datetime
import TrustLayer.Library.Delimited
import TrustLayer.Library.MerkleTree
import TrustLayer.Rfc9162
import TrustLayer.SerdeJson

/-!
# Row hashes of disclosure chains

The hashed text joins the fields of a row by bars.  The chain id comes first
and may hold bars itself; no field behind it does.
-/

namespace TrustLayer.Chains

open TrustLayer.Library
open TrustLayer.SerdeJson (decimal decimal_inj)

/-- BLAKE3, or SHA-256 where the extension is missing. -/
class Hasher where
  digest : List UInt8 → Vector UInt8 32

/-- `_hasher()`: the digest in hexadecimal. -/
def hasher [Hasher] (data : List UInt8) : Str :=
  toHex (Hasher.digest data).toList

def genesisHash : Str :=
  List.replicate 64 '0'

structure ComputeRowHashArgs where
  chainId : Str
  rowNumber : Int
  prevHash : Str
  payload : List UInt8
  coseSign1B64 : Str
  createdAt : Datetime
  deriving DecidableEq

/-- `uuidHex` is `uuid.uuid4().hex`. -/
def newChainId (uuidHex : Str) (front : Str) : Str :=
  front ++ '-' :: uuidHex.take 12

namespace ComputeRowHashArgs

def canonical (args : ComputeRowHashArgs) : List UInt8 :=
  utf8Bytes (args.chainId ++ '|' :: decimal args.rowNumber ++
    '|' :: args.prevHash ++ '|' :: args.coseSign1B64 ++
    '|' :: args.createdAt.isoformat)

/-- What the hash of the row is taken of. -/
def hashed [Hasher] (args : ComputeRowHashArgs) : List UInt8 :=
  args.canonical ++ utf8Bytes ['|'] ++ utf8Bytes (hasher args.payload)

/-- Every input of the hash function. -/
def inputs [Hasher] (args : ComputeRowHashArgs) : List (List UInt8) :=
  [args.payload, args.hashed]

/-- The previous hash is 64 hexadecimal digits, the envelope is base64. -/
structure WellFormed (args : ComputeRowHashArgs) : Prop where
  prevHash : args.prevHash.length = 64 ∧
    ∀ char ∈ args.prevHash, isAsciiHexdigit char = true
  coseSign1B64 : ∀ char ∈ args.coseSign1B64,
    char = '=' ∨ (Base64.sextet char).isSome = true

instance (args : ComputeRowHashArgs) : Decidable args.WellFormed :=
  decidable_of_iff
    ((args.prevHash.length = 64 ∧
        ∀ char ∈ args.prevHash, isAsciiHexdigit char = true) ∧
      ∀ char ∈ args.coseSign1B64,
        char = '=' ∨ (Base64.sextet char).isSome = true)
    ⟨fun both => ⟨both.1, both.2⟩, fun formed => ⟨formed.1, formed.2⟩⟩

end ComputeRowHashArgs

def computeRowHash [Hasher] (args : ComputeRowHashArgs) : Str :=
  hasher args.hashed

/-! ## Fields without bars -/

theorem bar_not_mem_decimal (value : Int) : '|' ∉ decimal value := by
  have digits (value : Nat) : '|' ∉ Nat.toDigits 10 value := by
    intro member
    exact absurd (Nat.isDigit_of_mem_toDigits (by omega) (by omega) member)
      (by decide)
  cases value with
  | ofNat value => exact digits value
  | negSucc value =>
      intro member
      rcases List.mem_cons.mp member with impossible | digit
      · cases impossible
      · exact digits (value + 1) digit

theorem bar_not_mem_toHex (bytes : List UInt8) : '|' ∉ toHex bytes := by
  have digits : ∀ value < 16, '|' ≠ hexDigit value := by decide
  intro member
  simp only [toHex, List.mem_flatMap, List.mem_cons, List.not_mem_nil,
    or_false] at member
  obtain ⟨byte, -, high | low⟩ := member
  · exact digits _ (by have := byte.toNat_lt; omega) high
  · exact digits _ (by omega) low

theorem bar_not_mem_padded (width value : Nat) : '|' ∉ padded width value := by
  intro member
  exact absurd (isAsciiDigit_of_mem_padded member) (by decide)

theorem bar_not_mem_fractionText (microsecond : Nat) :
    '|' ∉ fractionText microsecond := by
  intro member
  rcases fractionText_cases member with impossible | digit
  · cases impossible
  · cases digit

theorem bar_not_mem_isoformat (datetime : Datetime) :
    '|' ∉ datetime.isoformat := by
  have offsets (offset : UtcOffset) : '|' ∉ offset.isoformat := by
    unfold UtcOffset.isoformat
    split_ifs <;> simp [bar_not_mem_padded, bar_not_mem_fractionText]
  have zone : '|' ∉ zoneText datetime.offset := by
    cases datetime.offset with
    | none => exact List.not_mem_nil
    | some offset => exact offsets offset
  simp [Datetime.isoformat, Date.isoformat, Clock.isoformat,
    bar_not_mem_padded, bar_not_mem_fractionText, zone]

namespace ComputeRowHashArgs

variable {args : ComputeRowHashArgs}

theorem WellFormed.bar_not_mem_prevHash (formed : args.WellFormed) :
    '|' ∉ args.prevHash :=
  fun member => absurd (formed.prevHash.2 '|' member) (by decide)

theorem WellFormed.bar_not_mem_coseSign1B64 (formed : args.WellFormed) :
    '|' ∉ args.coseSign1B64 :=
  fun member => absurd (formed.coseSign1B64 '|' member) (by decide)

/-! ## Binding -/

/-- The fields behind the chain id. -/
def fields [Hasher] (args : ComputeRowHashArgs) : List Str :=
  [decimal args.rowNumber, args.prevHash, args.coseSign1B64,
    args.createdAt.isoformat, hasher args.payload]

theorem hashed_eq [Hasher] (args : ComputeRowHashArgs) :
    args.hashed = utf8Bytes (joinFields '|' args.chainId args.fields) := by
  simp [hashed, canonical, joinFields, fields, utf8Bytes]

theorem WellFormed.bar_not_mem_fields [Hasher] (formed : args.WellFormed) :
    ∀ field ∈ args.fields, '|' ∉ field := by
  intro field member
  simp only [fields, List.mem_cons, List.not_mem_nil, or_false] at member
  rcases member with rfl | rfl | rfl | rfl | rfl
  · exact bar_not_mem_decimal _
  · exact formed.bar_not_mem_prevHash
  · exact formed.bar_not_mem_coseSign1B64
  · exact bar_not_mem_isoformat _
  · exact bar_not_mem_toHex _

end ComputeRowHashArgs

/-- The hash binds every field of a row, whatever its chain id is. -/
theorem computeRowHash_binds [Hasher] {one other : ComputeRowHashArgs}
    (free : NoCollision Hasher.digest (one.inputs ++ other.inputs))
    (formed : one.WellFormed) (otherFormed : other.WellFormed)
    (same : computeRowHash one = computeRowHash other) : one = other := by
  have sameDigest : Hasher.digest one.hashed = Hasher.digest other.hashed :=
    Vector.toList_inj.mp (toHex_injective same)
  have sameHashed : one.hashed = other.hashed :=
    free _ (by simp [ComputeRowHashArgs.inputs]) _
      (by simp [ComputeRowHashArgs.inputs]) sameDigest
  rw [one.hashed_eq, other.hashed_eq] at sameHashed
  obtain ⟨chainId, fields⟩ := joinFields_inj formed.bar_not_mem_fields
    otherFormed.bar_not_mem_fields rfl (utf8Bytes_injective sameHashed)
  simp only [ComputeRowHashArgs.fields, List.cons.injEq, and_true] at fields
  obtain ⟨rowText, prevHash, coseSign1B64, time, payloadHash⟩ := fields
  have rowNumber := decimal_inj rowText
  have createdAt := Datetime.isoformat_injective time
  have payload : one.payload = other.payload :=
    free _ (by simp [ComputeRowHashArgs.inputs]) _
      (by simp [ComputeRowHashArgs.inputs])
      (Vector.toList_inj.mp (toHex_injective payloadHash))
  obtain ⟨_, _, _, _, _, _⟩ := one
  obtain ⟨_, _, _, _, _, _⟩ := other
  subst chainId rowNumber prevHash payload coseSign1B64 createdAt
  rfl

/-! ## A first row -/

def payloadDigest : Nat :=
  0x44136fa355b3678a1146ad16f7e8649e94fb4fc21fe77e8310c060f61caaff8a

def rowDigest : Nat :=
  0x7c6c4d9359cd762fde8bed5287c4e575341044c10eeab67f93600958d55330c8

def firstRowText : Str :=
  "tl-0123456789ab|1|".toList ++ genesisHash ++
    "|0oRDoQEm|2026-01-02T03:04:05+00:00|".toList ++
    toHex (Rfc9162.digestOf payloadDigest).toList

/-- What SHA-256 answers on the inputs of the row. -/
@[reducible] def firstRowAnswers : Hasher where
  digest data :=
    Rfc9162.digestOf (([(utf8Bytes "\x7b\x7d".toList, payloadDigest),
      (utf8Bytes firstRowText, rowDigest)].lookup data).getD 0)

def firstRow (createdAt : Datetime) : ComputeRowHashArgs :=
  { chainId := newChainId "0123456789abcdef0123456789abcdef".toList "tl".toList
    rowNumber := 1
    prevHash := genesisHash
    payload := utf8Bytes "\x7b\x7d".toList
    coseSign1B64 := "0oRDoQEm".toList
    createdAt }

def firstRowTime : Datetime :=
  (Datetime.fromisoformat "20260102T030405Z".toList).get (by decide)

def firstRowReadBack : Datetime :=
  (Datetime.fromisoformat "2026-01-02 03:04:05+00:00".toList).get (by decide)

set_option maxRecDepth 2000 in
theorem computeRowHash_binds_firstRow :
    let := firstRowAnswers
    computeRowHash (firstRow firstRowTime) =
        toHex (Rfc9162.digestOf rowDigest).toList ∧
      firstRow firstRowTime = firstRow firstRowReadBack := by
  let := firstRowAnswers
  refine ⟨by decide, ?_⟩
  exact computeRowHash_binds (by decide) (by decide) (by decide) (by decide)

end TrustLayer.Chains
