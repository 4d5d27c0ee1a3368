import TrustLayer.Library.CharBoundary
import TrustLayer.SerdeJson.Derive

/-!
# Evidence bundles as PDF

A bundle is laid out from the top of the first page down, and a new page begins
behind the items that reach its foot.  Of the signature the first 80 bytes are
shown.
-/

namespace TrustLayer.TlEvidence.BundlePdf

open TrustLayer.Library hiding Json
open TrustLayer.AgentGuard (Json)
open TrustLayer.SerdeJson (Parser fieldsFrom readDefault readOption
  readVec)

inductive PdfExportError where
  | invalidJson (text : Str)
  | missingField (text : Str)
  | printPdf (text : Str)
  deriving DecidableEq

/-! ## Bundles -/

structure DisclosureItem where
  disclosureId : Str
  complianceRollup : Str
  v1Disclaimers : List Str
  deriving DecidableEq

structure SignatureInfo where
  coseSign1B64 : Str
  rowHash : Str
  deriving DecidableEq

structure EvidenceBundle where
  bundleId : Str
  orgId : Str
  createdAt : Str
  complianceRollup : Str
  disclosures : List DisclosureItem
  signature : Option SignatureInfo
  tsaToken : Option Str
  tsaUrl : Option Str
  disclaimers : List Str
  rowHash : Option Str
  issuerPubkeyFingerprint : Option Str
  deriving DecidableEq

def DisclosureItem.read (json : Json) : Option DisclosureItem := do
  match ← fieldsFrom 0 ["disclosure_id".toList, "compliance_rollup".toList,
    "v1_disclaimers".toList] json with
  | [disclosureId, complianceRollup, v1Disclaimers] =>
      return {
        disclosureId := ← readDefault [] Json.asStr disclosureId
        complianceRollup := ← readDefault [] Json.asStr complianceRollup
        v1Disclaimers := ← readDefault [] (readVec Json.asStr) v1Disclaimers }
  | _ => none

def SignatureInfo.read (json : Json) : Option SignatureInfo := do
  match ← fieldsFrom 0 ["cose_sign1_b64".toList, "row_hash".toList] json with
  | [coseSign1B64, rowHash] =>
      return {
        coseSign1B64 := ← readDefault [] Json.asStr coseSign1B64
        rowHash := ← readDefault [] Json.asStr rowHash }
  | _ => none

def EvidenceBundle.names : List Str := [
  "bundle_id".toList, "org_id".toList, "created_at".toList,
  "compliance_rollup".toList, "disclosures".toList, "signature".toList,
  "tsa_token".toList, "tsa_url".toList, "disclaimers".toList,
  "row_hash".toList, "issuer_pubkey_fingerprint".toList]

def EvidenceBundle.read (json : Json) : Option EvidenceBundle := do
  match ← fieldsFrom 0 names json with
  | [bundleId, orgId, createdAt, complianceRollup, disclosures, signature,
      tsaToken, tsaUrl, disclaimers, rowHash, issuerPubkeyFingerprint] =>
      return {
        bundleId := ← readDefault [] Json.asStr bundleId
        orgId := ← readDefault [] Json.asStr orgId
        createdAt := ← readDefault [] Json.asStr createdAt
        complianceRollup := ← readDefault [] Json.asStr complianceRollup
        disclosures := ← readDefault [] (readVec DisclosureItem.read)
          disclosures
        signature := ← readOption SignatureInfo.read signature
        tsaToken := ← readOption Json.asStr tsaToken
        tsaUrl := ← readOption Json.asStr tsaUrl
        disclaimers := ← readDefault [] (readVec Json.asStr) disclaimers
        rowHash := ← readOption Json.asStr rowHash
        issuerPubkeyFingerprint := ← readOption Json.asStr
          issuerPubkeyFingerprint }
  | _ => none

def parseBundle [Parser] (json : Str) :
    Except PdfExportError EvidenceBundle :=
  (SerdeJson.fromStr "EvidenceBundle".toList EvidenceBundle.read json).mapError
    .invalidJson

/-! ## Operations on a page -/

inductive BuiltinFont where
  | helvetica
  | helveticaBold
  | courier
  deriving DecidableEq

/-- Colours and places as `printpdf` takes them; places are in millimetres and
sizes in points. -/
inductive Op where
  | setFillColor (r g b : Float32)
  | startTextSection
  | setTextCursor (x y : Float32)
  | setFont (font : BuiltinFont) (size : Float32)
  | setLineHeight (lh : Float32)
  | showText (text : Str)
  | endTextSection
  | setOutlineColor (r g b : Float32)
  | setOutlineThickness (pt : Float32)
  | drawLine (points : List (Float32 × Float32))

structure PdfPage where
  width : Float32
  height : Float32
  ops : List Op

/-- `save` of the `printpdf` crate, on the title and the pages. -/
class PrintPdf where
  save : (title : Str) → (pages : List PdfPage) → Except Panic (List UInt8)

/-- Black is set in front of the text. -/
def pushText (font : BuiltinFont) (size x y : Float32) (text : Str) :
    List Op := [
  .setFillColor 0.0 0.0 0.0, .startTextSection, .setTextCursor x y,
  .setFont font size, .setLineHeight size, .showText text, .endTextSection]

/-- `{:<14} {}`. -/
def kvLine (key value : Str) : Str :=
  key ++ List.replicate (14 - key.length) ' ' ++ ' ' :: value

def pushKv (font : BuiltinFont) (x y : Float32) (key value : Str) : List Op :=
  pushText font 10.0 x y (kvLine key value)

def pushKvColored (font : BuiltinFont) (x y : Float32) (key value : Str)
    (color : Float32 × Float32 × Float32) : List Op :=
  .setFillColor color.1 color.2.1 color.2.2 ::
    pushKv font x y key value ++ [.setFillColor 0.0 0.0 0.0]

def pushHorizontalLine (x y width : Float32) : List Op := [
  .setOutlineColor 0.7 0.7 0.7, .setOutlineThickness 0.3,
  .drawLine [(x, y), (x + width, y)], .setOutlineColor 0.0 0.0 0.0,
  .setOutlineThickness 1.0]

/-- The lines so far, the line that is being filled, and where it stands. -/
structure Wrapping where
  ops : List Op
  current : Str
  curY : Float32

def wrapWord (font : BuiltinFont) (size x : Float32) (charsPerLine : Nat)
    (lines : Wrapping) (word : Str) : Wrapping :=
  let lines :=
    if charsPerLine < byteLen lines.current + byteLen word + 1 ∧
        lines.current ≠ [] then
      { ops := lines.ops ++ pushText font size x lines.curY lines.current
        current := []
        curY := lines.curY - size * 1.2 }
    else lines
  if lines.current ≠ [] then
    { lines with current := lines.current ++ ' ' :: word }
  else { lines with current := word }

/-- `as usize` of a quotient, at least 20. -/
def charsPerLine (maxWidthMm size : Float32) : Nat :=
  max (maxWidthMm / (0.18 * size)).toUInt64.toNat 20

/-- The lines of a text, and where the last one stands. -/
def pushWrappedText (font : BuiltinFont) (size x y : Float32) (text : Str)
    (maxWidthMm : Float32) : List Op × Float32 :=
  let lines := (splitWhitespace text).foldl
    (wrapWord font size x (charsPerLine maxWidthMm size)) ⟨[], [], y⟩
  if lines.current ≠ [] then
    (lines.ops ++ pushText font size x lines.curY lines.current, lines.curY)
  else (lines.ops, lines.curY)

def truncateCose {ε : Type} (cose : Str) (limit : Nat) : Call ε Str :=
  if byteLen cose ≤ limit then .ok cose
  else do
    let front ← Call.sliceTo limit cose
    return front ++ "…(".toList ++ (toString (byteLen cose)).toList ++
      " bytes total)".toList

def rollupColor (rollup : Str) : Float × Float × Float :=
  if rollup = "Compliant".toList then (0.0, 0.5, 0.0)
  else if rollup = "Partial".toList then (0.8, 0.5, 0.0)
  else if rollup = "NonCompliant".toList then (0.7, 0.0, 0.0)
  else (0.4, 0.4, 0.4)

def rollupRgb (rollup : Str) : Float32 × Float32 × Float32 :=
  let color := rollupColor rollup
  (color.1.toFloat32, color.2.1.toFloat32, color.2.2.toFloat32)

/-! ## The layout -/

/-- The pages that are full, the operations of the current one, and the height
that the layout has come down to. -/
structure Canvas where
  pages : List PdfPage
  ops : List Op
  y : Float32

namespace Canvas

def down (canvas : Canvas) (step : Float32) : Canvas :=
  { canvas with y := canvas.y - step }

def push (canvas : Canvas) (ops : List Op) : Canvas :=
  { canvas with ops := canvas.ops ++ ops }

def text (canvas : Canvas) (font : BuiltinFont) (size : Float32)
    (text : Str) : Canvas :=
  canvas.push (pushText font size 15.0 canvas.y text)

def kv (canvas : Canvas) (font : BuiltinFont) (key : String) (value : Str) :
    Canvas :=
  (canvas.push (pushKv font 15.0 canvas.y key.toList value)).down 6.0

def wrapped (canvas : Canvas) (x : Float32) (text : Str)
    (maxWidthMm : Float32) : Canvas :=
  let lines := pushWrappedText .helvetica 9.0 x canvas.y text maxWidthMm
  { canvas with ops := canvas.ops ++ lines.1, y := lines.2 }

/-- A rule over the width of the page. -/
def rule (canvas : Canvas) : Canvas :=
  (canvas.push (pushHorizontalLine 15.0 canvas.y 180.0)).down 8.0

def heading (canvas : Canvas) (title : String) : Canvas :=
  (canvas.text .helveticaBold 12.0 title.toList).down 7.0

def attach (canvas : Canvas) : List PdfPage :=
  canvas.pages ++ [{ width := 210.0, height := 297.0, ops := canvas.ops }]

def pageBreak (canvas : Canvas) : Canvas :=
  if canvas.y < 30.0 then { pages := canvas.attach, ops := [], y := 280.0 }
  else canvas

/-- A paragraph, behind which the page may end. -/
def item (canvas : Canvas) (x maxWidthMm : Float32) (text : Str) : Canvas :=
  ((canvas.wrapped x text maxWidthMm).down 4.5).pageBreak

def header (canvas : Canvas) : Canvas :=
  let canvas := canvas.text .helveticaBold 18.0
    "TrustLayer Evidence Bundle".toList
  let canvas := canvas.down 8.0
  let canvas := canvas.text .helvetica 10.0
    "Generated by Apohara TrustLayer v1.2".toList
  (canvas.down 12.0).rule

def metadata (canvas : Canvas) (bundle : EvidenceBundle) : Canvas :=
  let canvas := canvas.heading "Bundle Metadata"
  let canvas := canvas.kv .helvetica "Bundle ID:" bundle.bundleId
  let canvas := canvas.kv .helvetica "Org ID:" bundle.orgId
  let canvas := canvas.kv .helvetica "Created at:" bundle.createdAt
  let canvas := canvas.push (pushKvColored .helveticaBold 15.0 canvas.y
    "Compliance:".toList bundle.complianceRollup
    (rollupRgb bundle.complianceRollup))
  (canvas.down 10.0).rule

def disclosure (canvas : Canvas) (disc : DisclosureItem × Nat) : Canvas :=
  let canvas := canvas.text .helveticaBold 10.0
    ((toString (disc.2 + 1)).toList ++ ". ".toList ++ disc.1.disclosureId ++
      " (".toList ++ disc.1.complianceRollup ++ ")".toList)
  let canvas := disc.1.v1Disclaimers.foldl
    (fun canvas disclaimer => canvas.item 20.0 160.0
      ("• ".toList ++ disclaimer)) (canvas.down 5.5)
  (canvas.down 2.0).pageBreak

def disclosures (canvas : Canvas) (bundle : EvidenceBundle) : Canvas :=
  let canvas := canvas.heading "Disclosures"
  let canvas :=
    if bundle.disclosures = [] then
      (canvas.text .helvetica 10.0 "(no disclosures)".toList).down 6.0
    else bundle.disclosures.zipIdx.foldl disclosure canvas
  (canvas.down 4.0).rule

def envelope (canvas : Canvas) (signature : Option SignatureInfo) :
    Call PdfExportError Canvas :=
  match signature with
  | some sig => do
      let truncated ← truncateCose sig.coseSign1B64 80
      return (canvas.kv .courier "COSE_Sign1:" truncated).kv .courier
        "Row hash:" sig.rowHash
  | none => .ok ((canvas.text .helvetica 10.0 "(no signature)".toList).down 6.0)

def optionalKv (canvas : Canvas) (font : BuiltinFont) (key : String)
    (value : Option Str) : Canvas :=
  match value with
  | some value => canvas.kv font key value
  | none => canvas

def signature (canvas : Canvas) (bundle : EvidenceBundle) :
    Call PdfExportError Canvas := do
  let canvas ← (canvas.heading "Signature").envelope bundle.signature
  let canvas := canvas.optionalKv .courier "Issuer fp:"
    bundle.issuerPubkeyFingerprint
  return (canvas.down 4.0).rule

end Canvas

def tsaLabel (tsaToken tsaUrl : Option Str) : String :=
  match tsaToken, tsaUrl with
  | some _, some url =>
      if contains url "sectigo".toList then
        "Sectigo qualified (EU AI Act Art. 50 compliant)"
      else if contains url "digicert".toList then
        "DigiCert qualified (EU AI Act Art. 50 compliant)"
      else if contains url "free_tsa".toList ∨
          contains url "freetsa".toList then
        "FreeTSA — DEMO ONLY (not EU Trust List qualified)"
      else if contains url "mock".toList then "Mock — DEMO ONLY"
      else "RFC 3161 token present (TSA provider unspecified)"
  | some _, none => "RFC 3161 token present (TSA provider unspecified)"
  | none, _ => "No RFC 3161 token"

def instructions : Str :=
  ("1. POST /v1/verify/provenance with bundle_id\n" ++
    "2. Or use openssl + the COSE_Sign1 envelope\n" ++
    "3. Or use the TrustLayer WASM SDK in a browser").toList

def footer : Str :=
  ("This PDF was generated by TrustLayer v1.2. It is a human-readable " ++
    "rendering of the evidence bundle JSON and is NOT the canonical " ++
    "evidence. The canonical evidence is the JSON bundle served at " ++
    "GET /v1/evidence/\x7bbundle_id\x7d and the SCITT receipt at " ++
    "GET /v1/evidence/\x7bbundle_id\x7d/scitt-receipt.").toList

namespace Canvas

def timestamp (canvas : Canvas) (bundle : EvidenceBundle) : Canvas :=
  let canvas := canvas.heading "Timestamp"
  let canvas := canvas.kv .helvetica "Provider:"
    (tsaLabel bundle.tsaToken bundle.tsaUrl).toList
  let canvas := canvas.optionalKv .helvetica "URL:" bundle.tsaUrl
  (canvas.down 4.0).rule

def disclaimers (canvas : Canvas) (bundle : EvidenceBundle) : Canvas :=
  let canvas := canvas.heading "Disclaimers"
  let canvas := bundle.disclaimers.foldl
    (fun canvas disclaimer => canvas.item 15.0 180.0 disclaimer) canvas
  (canvas.down 4.0).rule

def verification (canvas : Canvas) : Canvas :=
  let canvas := canvas.heading "How to verify offline"
  let canvas := canvas.push
    (pushWrappedText .helvetica 9.0 15.0 canvas.y instructions 180.0).1
  canvas.push (pushText .helvetica 8.0 15.0 15.0 footer)

end Canvas

/-! ## Rendering -/

section

variable [PrintPdf]

def save (title : Str) (pages : List PdfPage) :
    Call PdfExportError (List UInt8) :=
  match PrintPdf.save title pages with
  | .ok bytes => .ok bytes
  | .error panic => .error (.panic panic)

def renderBundlePdf (bundle : EvidenceBundle) :
    Call PdfExportError (List UInt8) := do
  let canvas : Canvas := { pages := [], ops := [], y := 280.0 }
  let canvas := (canvas.header.metadata bundle).disclosures bundle
  let canvas ← canvas.signature bundle
  let canvas := ((canvas.timestamp bundle).disclaimers bundle).verification
  save ("TrustLayer Evidence Bundle ".toList ++ bundle.bundleId) canvas.attach

def renderJsonToPdf [Parser] (json : Str) :
    Call PdfExportError (List UInt8) :=
  match parseBundle json with
  | .ok bundle => renderBundlePdf bundle
  | .error error => .error (.error error)

end

/-! ## Where the rendering stops -/

section

variable {ε : Type} {cose : Str} {limit : Nat} {bundle : EvidenceBundle}

/-- The bytes that are shown end behind a character. -/
def Truncates (cose : Str) (limit : Nat) : Prop :=
  byteLen cose ≤ limit ∨ CharBoundary cose limit

instance (cose : Str) (limit : Nat) : Decidable (Truncates cose limit) :=
  inferInstanceAs (Decidable (_ ∨ _))

theorem returns_truncateCose_iff :
    (truncateCose cose limit : Call ε Str).Returns ↔ Truncates cose limit := by
  rw [truncateCose]
  split_ifs with short
  · exact iff_of_true (Call.returns_ok cose) (.inl short)
  · rw [Call.returns_bind_iff, Call.returns_sliceTo_iff]
    constructor
    · exact fun both => .inr both.1
    · rintro (whole | boundary)
      · exact absurd whole short
      · exact ⟨boundary, fun _ _ => Call.returns_ok _⟩

theorem Canvas.returns_envelope_iff (canvas : Canvas)
    (signature : Option SignatureInfo) :
    (canvas.envelope signature).Returns ↔
      ∀ sig ∈ signature, Truncates sig.coseSign1B64 80 := by
  cases signature with
  | none => exact iff_of_true (Call.returns_ok _) nofun
  | some sig =>
      rw [Canvas.envelope, Call.returns_bind_iff, returns_truncateCose_iff]
      constructor
      · rintro ⟨truncates, -⟩ other member
        obtain rfl := Option.some.inj member
        exact truncates
      · exact fun truncates => ⟨truncates sig rfl, fun _ _ => Call.returns_ok _⟩

theorem Canvas.returns_signature_iff (canvas : Canvas) :
    (canvas.signature bundle).Returns ↔
      ∀ sig ∈ bundle.signature, Truncates sig.coseSign1B64 80 := by
  rw [Canvas.signature, Call.returns_bind_iff, Canvas.returns_envelope_iff]
  exact and_iff_left fun _ _ => Call.returns_ok _

/-- The crate returns its bytes, whatever is on the pages. -/
def Saves [PrintPdf] : Prop :=
  ∀ title pages, ∃ bytes, PrintPdf.save title pages = .ok bytes

theorem returns_renderBundlePdf_iff [PrintPdf] (saves : Saves)
    (bundle : EvidenceBundle) :
    (renderBundlePdf bundle).Returns ↔
      ∀ sig ∈ bundle.signature, Truncates sig.coseSign1B64 80 := by
  rw [renderBundlePdf, Call.returns_bind_iff, Canvas.returns_signature_iff]
  refine and_iff_left fun canvas _ => ?_
  obtain ⟨bytes, saved⟩ := saves _ _
  rw [save, saved]
  exact Call.returns_ok bytes

/-- A bundle that is read is rendered, unless the 80th byte of its signature is
inside a character. -/
theorem renderJsonToPdf_returns_iff [Parser] [PrintPdf] (saves : Saves)
    {json : Str} {bundle : EvidenceBundle}
    (accepted : parseBundle json = .ok bundle) :
    (renderJsonToPdf json).Returns ↔
      ∀ sig ∈ bundle.signature, byteLen sig.coseSign1B64 ≤ 80 ∨
        CharBoundary sig.coseSign1B64 80 := by
  rw [renderJsonToPdf, accepted]
  exact returns_renderBundlePdf_iff saves bundle

end

/-! ## Signatures in other letters -/

/-- The 80th byte is the second of the two that the letter takes. -/
def wholeCose : Str :=
  List.replicate 78 'a' ++ 'é' :: List.replicate 10 'a'

/-- The 80th byte is the first of the two that the letter takes. -/
def accentedCose : Str :=
  List.replicate 79 'a' ++ ['é']

def signedJson (cose : Str) : Str :=
  "\x7b\"signature\":\x7b\"cose_sign1_b64\":\"".toList ++ cose ++
    "\"\x7d\x7d".toList

def signedBundle (cose : Str) : EvidenceBundle where
  bundleId := []
  orgId := []
  createdAt := []
  complianceRollup := []
  disclosures := []
  signature := some ⟨cose, []⟩
  tsaToken := none
  tsaUrl := none
  disclaimers := []
  rowHash := none
  issuerPubkeyFingerprint := none

/-- The parser on the texts of the two. -/
@[reducible] def twoTexts : Parser where
  tree text :=
    ([wholeCose, accentedCose].find? fun cose => text = signedJson cose).map
      fun cose => .object [("signature".toList,
        .object [("cose_sign1_b64".toList, .string cose)])]
  textError _ _ := []
  valueError _ _ := []

/-- The bytes that every document begins with. -/
@[reducible] def magicBytes : PrintPdf where
  save _ _ := .ok [0x25, 0x50, 0x44, 0x46, 0x2D]

/-- A long signature that is cut behind a character. -/
theorem wholeCose_rendered :
    80 < byteLen wholeCose ∧
      (@renderJsonToPdf magicBytes twoTexts (signedJson wholeCose)).Returns := by
  have accepted : @parseBundle twoTexts (signedJson wholeCose) =
      .ok (signedBundle wholeCose) := by rfl
  refine ⟨by decide, (@renderJsonToPdf_returns_iff twoTexts magicBytes
    (fun _ _ => ⟨_, rfl⟩) _ _ accepted).mpr ?_⟩
  intro sig member
  obtain rfl := Option.some.inj member
  exact .inr (by decide)

theorem accentedCose_stops :
    @parseBundle twoTexts (signedJson accentedCose) =
      .ok (signedBundle accentedCose) ∧
    @renderJsonToPdf magicBytes twoTexts (signedJson accentedCose) =
      .error (.panic .insideChar) := by
  exact ⟨by rfl, by rfl⟩

end TrustLayer.TlEvidence.BundlePdf
