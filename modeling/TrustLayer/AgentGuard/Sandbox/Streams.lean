import TrustLayer.AgentGuard.Sandbox
import TrustLayer.Library.Settling
import TrustLayer.Library.Unicode

/-!
# The pipes of a sandboxed run

The output of the command comes through two pipes and is bounded.  A third one
says why there is no command: it carries four bytes for the error of the exec,
or the text of a setup error, and nothing if the exec closed it.
-/

namespace TrustLayer.AgentGuard.Sandbox

open TrustLayer.Library

/-! ## Reading to the end -/

/-- What `read` answers; behind the last answer the file ends. -/
inductive ReadAnswer where
  | data (bytes : List UInt8)
  | interrupted
  | failed (text : Str)
  deriving DecidableEq

def maxOutputBytes : Nat :=
  16 * 1024 * 1024

def truncationMark : Str :=
  "\n... [output truncated]\n".toList

/-- What the loop has kept, and whether it left something out. -/
structure Kept where
  out : List UInt8
  overflow : Bool
  deriving DecidableEq

def Kept.add (kept : Kept) (max : Nat) (bytes : List UInt8) : Kept :=
  if kept.out.length < max then
    let take := min bytes.length (max - kept.out.length)
    { out := kept.out ++ bytes.take take
      overflow := kept.overflow || take < bytes.length }
  else { kept with overflow := true }

def readLoop (max : Nat) (kept : Kept) :
    List ReadAnswer → Except SandboxError Kept
  | [] => .ok kept
  | .data bytes :: answers =>
      if bytes = [] then .ok kept
      else readLoop max (kept.add max bytes) answers
  | .interrupted :: answers => readLoop max kept answers
  | .failed text :: _ => .error (.runner text)

def readBounded (max : Nat) (answers : List ReadAnswer) :
    Except SandboxError Str := do
  let kept ← readLoop max ⟨[], false⟩ answers
  return fromUtf8Lossy kept.out ++ if kept.overflow then truncationMark else []

/-- What comes through the pipe as a whole. -/
def received : List ReadAnswer → Except Str (List UInt8)
  | [] => .ok []
  | .data bytes :: answers =>
      if bytes = [] then .ok [] else (received answers).map (bytes ++ ·)
  | .interrupted :: answers => received answers
  | .failed text :: _ => .error text

/-- The front of the bytes, and whether there are more of them. -/
def Kept.front (max : Nat) (bytes : List UInt8) : Kept :=
  ⟨bytes.take max, decide (max < bytes.length)⟩

theorem add_front (max : Nat) (before bytes : List UInt8)
    (more : bytes ≠ []) :
    (Kept.front max before).add max bytes = Kept.front max (before ++ bytes) := by
  have some : 0 < bytes.length := List.length_pos_iff.mpr more
  unfold Kept.add
  split_ifs with room
  · have short : before.length < max := by
      rw [Kept.front, List.length_take] at room
      omega
    have all : before.take max = before := List.take_of_length_le short.le
    have taken : bytes.take (min bytes.length (max - before.length)) =
        bytes.take (max - before.length) := by
      rw [min_comm]
      exact List.take_eq_take_min.symm
    simp only [Kept.front, all, taken, List.take_append, List.length_append,
      Kept.mk.injEq, true_and]
    grind
  · have full : max ≤ before.length := by
      rw [Kept.front, List.length_take] at room
      omega
    simp only [Kept.front, List.take_append_of_le_length full,
      List.length_append, Kept.mk.injEq, true_and]
    exact (decide_eq_true (by omega)).symm

theorem readLoop_front (max : Nat) (before : List UInt8)
    (answers : List ReadAnswer) :
    readLoop max (Kept.front max before) answers =
      ((received answers).mapError .runner).map
        fun bytes => Kept.front max (before ++ bytes) := by
  induction answers generalizing before with
  | nil => simp [readLoop, received, Except.mapError, Except.map]
  | cons answer answers induction =>
      cases answer with
      | data bytes =>
          rw [readLoop, received]
          split_ifs with last
          · simp [Except.mapError, Except.map]
          · rw [add_front max before bytes last, induction]
            cases received answers with
            | error text => rfl
            | ok rest => simp [Except.mapError, Except.map]
      | interrupted => exact induction before
      | failed text => rfl

/-- However the reads cut the stream up, the caller gets its front, and the
mark exactly if there is more of it. -/
theorem readBounded_eq (max : Nat) (answers : List ReadAnswer) :
    readBounded max answers =
      ((received answers).mapError .runner).map fun bytes =>
        fromUtf8Lossy (bytes.take max) ++
          if max < bytes.length then truncationMark else [] := by
  have looped := readLoop_front max [] answers
  have none : Kept.front max [] = ⟨[], false⟩ := by simp [Kept.front]
  rw [none] at looped
  rw [readBounded, looped]
  cases received answers with
  | error text => rfl
  | ok bytes => simp [Except.mapError, Except.map, Kept.front, pure, Except.pure,
      bind, Except.bind]

/-! ## The pipe of the setup -/

inductive SetupError where
  | execErrno (errno : Int32)
  | message (text : Str)
  deriving DecidableEq

/-- `i32::to_le_bytes`. -/
def toLeBytes (errno : Int32) : List UInt8 :=
  let bits := errno.toUInt32.toNat
  [UInt8.ofNat bits, UInt8.ofNat (bits / 2 ^ 8), UInt8.ofNat (bits / 2 ^ 16),
    UInt8.ofNat (bits / 2 ^ 24)]

/-- `i32::from_le_bytes`. -/
def fromLeBytes (byte0 byte1 byte2 byte3 : UInt8) : Int32 :=
  (UInt32.ofNat (byte0.toNat + 2 ^ 8 * byte1.toNat + 2 ^ 16 * byte2.toNat +
    2 ^ 24 * byte3.toNat)).toInt32

def parseSetupError : List UInt8 → Option SetupError
  | [] => none
  | [byte0, byte1, byte2, byte3] =>
      some (.execErrno (fromLeBytes byte0 byte1 byte2 byte3))
  | buf => some (.message (fromUtf8Lossy buf))

def readSetupError (answers : List ReadAnswer) :
    Except SandboxError (Option SetupError) :=
  ((received answers).mapError .runner).map parseSetupError

/-- What `report_setup_error` writes. -/
def reportSetupError (message : Str) : List UInt8 :=
  (utf8Bytes message).take 255

theorem fromLeBytes_toLeBytes (errno : Int32) :
    parseSetupError (toLeBytes errno) = some (.execErrno errno) := by
  have bound := errno.toUInt32.toNat_lt
  have whole : errno.toUInt32.toNat % 2 ^ 8 +
      2 ^ 8 * (errno.toUInt32.toNat / 2 ^ 8 % 2 ^ 8) +
      2 ^ 16 * (errno.toUInt32.toNat / 2 ^ 16 % 2 ^ 8) +
      2 ^ 24 * (errno.toUInt32.toNat / 2 ^ 24 % 2 ^ 8) =
        errno.toUInt32.toNat := by
    omega
  simp only [toLeBytes, parseSetupError, fromLeBytes, UInt8.toNat_ofNat', whole,
    UInt32.ofNat_toNat, Int32.toInt32_toUInt32]

theorem length_le_length_utf8Bytes (text : Str) :
    text.length ≤ (utf8Bytes text).length := by
  induction text with
  | nil => exact Nat.le_refl 0
  | cons char text induction =>
      have one : 0 < (String.utf8EncodeChar char).length := by
        rw [String.length_utf8EncodeChar]
        exact Char.utf8Size_pos char
      rw [utf8Bytes, List.flatMap_cons, List.length_append, List.length_cons]
      rw [utf8Bytes] at induction
      omega

/-- A message that is longer than a number is read as a message. -/
theorem parseSetupError_reportSetupError {message : Str}
    (long : 4 < message.length) :
    parseSetupError (reportSetupError message) =
      some (.message (fromUtf8Lossy (reportSetupError message))) := by
  have enough : 4 < (reportSetupError message).length := by
    have bytes := length_le_length_utf8Bytes message
    rw [reportSetupError, List.length_take]
    omega
  unfold parseSetupError
  split
  · next empty => exact absurd (empty ▸ enough) (by decide)
  · next number =>
      rw [number] at enough
      exact absurd enough (Nat.lt_irrefl 4)
  · rfl

end TrustLayer.AgentGuard.Sandbox
