import TrustLayer.AgentGuard.Gate.Normalize
import TrustLayer.Library.Base64

/-!
# Base64 decode of piped payloads

The decoder itself is third-party code and a parameter of the model.
-/

namespace TrustLayer.AgentGuard.Gate

open TrustLayer.Library
open TrustLayer.Library.Base64 (sextet)

/-- The standard-alphabet decoder, from bytes to bytes. -/
class Base64Engine where
  decode : List Char → Option (List Char)

namespace Base64Engine

/-- Groups of four characters, the last one padded; the bits that a padded
group leaves over are zero. -/
def decodeGroups : List Char → Option (List Char)
  | [] => some []
  | [first, second, '=', '='] => do
      let code := (← sextet first) * 64 + (← sextet second)
      if code % 16 = 0 then some [Char.ofNat (code / 16)] else none
  | [first, second, third, '='] => do
      let code :=
        ((← sextet first) * 64 + (← sextet second)) * 64 + (← sextet third)
      if code % 4 = 0 then
        some [Char.ofNat (code / 1024), Char.ofNat (code / 4 % 256)]
      else none
  | first :: second :: third :: fourth :: rest => do
      let code :=
        (((← sextet first) * 64 + (← sextet second)) * 64 + (← sextet third)) *
          64 + (← sextet fourth)
      let decoded ← decodeGroups rest
      some (Char.ofNat (code / 65536) :: Char.ofNat (code / 256 % 256) ::
        Char.ofNat (code % 256) :: decoded)
  | _ => none

/-- The decoder the source names, to evaluate the model with. -/
@[reducible] def standard : Base64Engine := ⟨decodeGroups⟩

end Base64Engine

def maxDecodeDepth : Nat := 2

def maxDecodeBytes : Nat := 64 * 1024

/-- The words of a pipe stage are `base64 ... -d` or `base64 ... --decode`. -/
def isDecodeStage (words : List Str) : Bool :=
  match words with
  | [] => false
  | head :: flags =>
      head == "base64".toList &&
        flags.any fun flag => flag == "-d".toList || flag == "--decode".toList

def hasBase64DecodeStage (leg : Str) : Bool :=
  (splitChar '|' leg).any fun stage => isDecodeStage (splitWhitespace (trim stage))

/-- A leading `-n` or `-e` of the feeding `echo` is skipped once. -/
def dropEchoFlag (words : List Str) : List Str :=
  match words with
  | [] => []
  | word :: rest =>
      if word = "-n".toList ∨ word = "-e".toList then rest else word :: rest

def extractPayload (leg : Str) : Option Str :=
  match splitWhitespace (trim ((splitChar '|' leg).headD [])) with
  | [] => none
  | head :: words =>
      if head = "echo".toList then
        some (stripQuotes (trim (joinWords (dropEchoFlag words))))
      else some (stripQuotes head)

/-- The decoded payload of a `base64 -d` stage, unless a cap refuses it. -/
def decodeAndExpand [Base64Engine] (leg : Str) (depth : Nat) : Option Str :=
  if depth ≥ maxDecodeDepth then none
  else if hasBase64DecodeStage leg = false then none
  else do
    let payload ← extractPayload leg
    let decoded ← Base64Engine.decode (asBytes payload)
    if decoded.length > maxDecodeBytes then none else fromUtf8 decoded

theorem decodeAndExpand_of_no_stage [Base64Engine] {leg : Str} (depth : Nat)
    (absent : hasBase64DecodeStage leg = false) :
    decodeAndExpand leg depth = none := by
  simp [decodeAndExpand, absent]

/-- Past the depth cap: is a decode stage still there? -/
def hasUnresolvedDecode (leg : Str) : Bool :=
  (splitChar '|' leg).any fun stage => isDecodeStage (splitWhitespace stage)

end TrustLayer.AgentGuard.Gate
