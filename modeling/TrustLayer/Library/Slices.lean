import TrustLayer.Library.Settling
import TrustLayer.Library.Overflow

/-!
# Calls that may panic

A slice outside the bytes stops the call in every build.  A sum of sizes that
does not fit 64 bits stops a checked build, and wraps around in an unchecked
one.
-/

namespace TrustLayer.Library

inductive Panic where
  | outOfRange
  | insideChar
  | overflow
  | zeroModulus
  deriving DecidableEq

/-- How a call ends that does not return a value. -/
inductive Abort (ε : Type) where
  | error (error : ε)
  | panic (panic : Panic)
  deriving DecidableEq

abbrev Call (ε α : Type) := Except (Abort ε) α

section

variable {ε ι α β : Type}

namespace Call

/-- The call returns, with a value or an error. -/
def Returns (call : Call ε α) : Prop :=
  ∀ panic, call ≠ .error (.panic panic)

def mapError (wrap : ε → ι) : Call ε α → Call ι α
  | .ok value => .ok value
  | .error (.error error) => .error (.error (wrap error))
  | .error (.panic panic) => .error (.panic panic)

/-- `&bytes[start..stop]`. -/
def slice (start stop : Nat) (bytes : List α) : Call ε (List α) :=
  if start ≤ stop ∧ stop ≤ bytes.length then
    .ok ((bytes.take stop).drop start)
  else .error (.panic .outOfRange)

/-- `bytes[place]`. -/
def index (place : Nat) (bytes : List α) : Call ε α :=
  match bytes[place]? with
  | some byte => .ok byte
  | none => .error (.panic .outOfRange)

end Call

/-- `left + right` at `usize`. -/
def Profile.addUsize (profile : Profile) (left right : Nat) : Call ε Nat :=
  if left + right < 2 ^ 64 then .ok (left + right)
  else
    match profile with
    | .dev => .error (.panic .overflow)
    | .release => .ok ((left + right) % 2 ^ 64)

/-- `left - right` at `usize`. -/
def Profile.subUsize (profile : Profile) (left right : Nat) : Call ε Nat :=
  if right ≤ left then .ok (left - right)
  else
    match profile with
    | .dev => .error (.panic .overflow)
    | .release => .ok (2 ^ 64 - (right - left))

/-- A result at an unsigned type of `width` bits. -/
def Profile.unsigned (profile : Profile) (width value : Nat) : Call ε Nat :=
  if value < 2 ^ width then .ok value
  else
    match profile with
    | .dev => .error (.panic .overflow)
    | .release => .ok (value % 2 ^ width)

namespace Call

variable {call : Call ε α} {next : α → Call ε β}

theorem returns_ok (value : α) : Returns (.ok value : Call ε α) := nofun

theorem returns_error (error : ε) :
    Returns (.error (.error error) : Call ε α) := nofun

theorem not_returns_panic (panic : Panic) :
    ¬ Returns (.error (.panic panic) : Call ε α) :=
  fun returns => returns panic rfl

@[simp] theorem ok_bind (value : α) :
    ((.ok value : Call ε α) >>= next) = next value := rfl

@[simp] theorem error_bind (abort : Abort ε) :
    ((.error abort : Call ε α) >>= next) = .error abort := rfl

theorem returns_bind_iff : (call >>= next).Returns ↔
    call.Returns ∧ ∀ value, call = .ok value → (next value).Returns := by
  cases call with
  | error abort =>
      cases abort with
      | error error =>
          exact iff_of_true (returns_error error) ⟨returns_error error, nofun⟩
      | panic panic =>
          exact iff_of_false (not_returns_panic panic)
            fun both => not_returns_panic panic both.1
  | ok value =>
      constructor
      · intro returns
        exact ⟨returns_ok value, fun _ same => Except.ok.inj same ▸ returns⟩
      · intro both
        exact both.2 value rfl

theorem mapError_eq_ok_iff {wrap : ε → ι} {value : α} :
    call.mapError wrap = .ok value ↔ call = .ok value := by
  cases call with
  | error abort => cases abort <;> simp [mapError]
  | ok value => simp [mapError]

theorem index_of_some {bytes : List α} {place : Nat} {byte : α}
    (found : bytes[place]? = some byte) :
    index place bytes = (.ok byte : Call ε α) := by
  rw [index, found]

theorem index_of_none {bytes : List α} {place : Nat}
    (outside : bytes[place]? = none) :
    index place bytes = (.error (.panic .outOfRange) : Call ε α) := by
  rw [index, outside]

theorem slice_append {front middle behind : List α} {start stop : Nat}
    (begins : start = front.length) (ends : stop = start + middle.length) :
    slice start stop (front ++ middle ++ behind) =
      (.ok middle : Call ε (List α)) := by
  subst begins ends
  rw [slice, if_pos (by simp), ← List.length_append, List.take_left,
    List.drop_left]

theorem slice_prefix (front behind : List α) :
    slice 0 front.length (front ++ behind) = (.ok front : Call ε (List α)) := by
  rw [slice, if_pos (by simp), List.take_left, List.drop_zero]

theorem slice_suffix (front behind : List α) :
    slice front.length (front ++ behind).length (front ++ behind) =
      (.ok behind : Call ε (List α)) := by
  rw [slice, if_pos (by simp), List.take_length, List.drop_left]

theorem slice_drop {bytes : List α} {start : Nat}
    (inside : start ≤ bytes.length) :
    slice start bytes.length bytes =
      (.ok (bytes.drop start) : Call ε (List α)) := by
  rw [slice, if_pos ⟨inside, le_rfl⟩, List.take_length]

theorem slice_of_lt {bytes : List α} {start stop : Nat}
    (beyond : bytes.length < stop) :
    slice start stop bytes = (.error (.panic .outOfRange) : Call ε (List α)) :=
  if_neg fun inside => absurd inside.2 (Nat.not_le_of_lt beyond)

end Call

namespace Profile

variable {profile : Profile} {left right : Nat}

theorem addUsize_of_lt (fits : left + right < 2 ^ 64) :
    profile.addUsize left right = (.ok (left + right) : Call ε Nat) :=
  if_pos fits

theorem subUsize_of_le (fits : right ≤ left) :
    profile.subUsize left right = (.ok (left - right) : Call ε Nat) :=
  if_pos fits

theorem unsigned_of_lt {width value : Nat} (fits : value < 2 ^ width) :
    profile.unsigned width value = (.ok value : Call ε Nat) :=
  if_pos fits

end Profile

end

end TrustLayer.Library
