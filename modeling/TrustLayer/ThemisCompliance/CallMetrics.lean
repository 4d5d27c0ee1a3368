import TrustLayer.Library.Recent
import TrustLayer.Library.Rounding
import TrustLayer.Library.StableSort
import TrustLayer.ThemisAgents.Complete
import Mathlib.Algebra.Field.Rat
import Mathlib.Algebra.Order.BigOperators.Group.List

/-!
# The metrics of the calls

The sinks of the two hosted backends keep the same counters.  The cost is left
out.
-/

namespace TrustLayer.ThemisCompliance.CallMetrics

open TrustLayer.Library hiding Json
open TrustLayer.Library.BinaryFormat
open TrustLayer.AgentGuard (Json)
open TrustLayer.SerdeJson (Parser)
open TrustLayer.ThemisAgents (AgentError FloatTexts LlmRequest LlmResponse)
open TrustLayer.ThemisAgents.Complete

/-! ## Counters -/

/-- `saturating_add` of a type with so many bits. -/
def saturatingAdd (bits left right : Nat) : Nat :=
  min (left + right) (2 ^ bits - 1)

def latencyRingCap : Nat := 1024

structure MetricsState where
  calls : Nat
  successes : Nat
  latencySumMs : Nat
  latencyRing : RingBuffer Nat
  totalTokensIn : Nat
  totalTokensOut : Nat
  model : Str

def MetricsState.default : MetricsState where
  calls := 0
  successes := 0
  latencySumMs := 0
  latencyRing := .new latencyRingCap (by decide) 0
  totalTokensIn := 0
  totalTokensOut := 0
  model := []

def recordCall (s : MetricsState) (outcome : CallMetrics) : MetricsState where
  calls := saturatingAdd 32 s.calls 1
  successes :=
    if outcome.success then saturatingAdd 32 s.successes 1 else s.successes
  latencySumMs := saturatingAdd 128 s.latencySumMs outcome.latencyMs.toNat
  latencyRing := s.latencyRing.push outcome.latencyMs.toNat
  totalTokensIn := saturatingAdd 64 s.totalTokensIn outcome.tokensIn.toNat
  totalTokensOut := saturatingAdd 64 s.totalTokensOut outcome.tokensOut.toNat
  model := if s.model = [] then outcome.model else s.model

/-! ## What the dashboard shows -/

/-- A finite `f64`. -/
abbrev Double := binary64.Number

structure Snapshot where
  calls : Nat
  successes : Nat
  avgLatencyMs : Double
  p95LatencyMs : Double
  totalTokensIn : Nat
  totalTokensOut : Nat
  model : Str

/-- The constant `0.95`. -/
def share95 : Double :=
  .ofRat (95 / 100)

/-- `floor(0.95 * len)`, below the length. -/
def p95Index (len : Nat) : Nat :=
  min ((Number.ofNat len).mul share95).floorUsize (len - 1)

/-- The sum of all latencies is divided by the number of the samples. -/
def snapshot (s : MetricsState) : Snapshot :=
  let samples := s.latencyRing.held.insertionSort (· ≤ ·)
  { calls := s.calls
    successes := s.successes
    avgLatencyMs := if samples.length = 0 then .ofNat 0
      else (Number.ofNat s.latencySumMs).div (.ofNat samples.length)
    p95LatencyMs := .ofNat ((samples[p95Index samples.length]?).getD 0)
    totalTokensIn := s.totalTokensIn
    totalTokensOut := s.totalTokensOut
    model := s.model }

/-! ### The index -/

theorem ofNat_value {count : Nat} (few : count ≤ 2 ^ 53) :
    (Number.ofNat count : Double).value = count :=
  nearest_of_holds (holds_natCast few (by decide))

/-- The constant lies just below its decimal. -/
theorem share95_bounds :
    19 / 20 - 1 / 2 ^ 50 ≤ share95.value ∧ share95.value ≤ 19 / 20 := by
  decide +kernel

theorem floorUsize_twenties :
    ∀ twenties < 52, ((Number.ofNat (20 * twenties)).mul share95).floorUsize =
      19 * twenties := by
  decide +kernel

/-- The product is rounded, but not across an integer. -/
theorem p95Index_eq {len : Nat} (few : len ≤ latencyRingCap) :
    p95Index len = min (19 * len / 20) (len - 1) := by
  have cap : len ≤ 1024 := few
  suffices floors : ((Number.ofNat len).mul share95).floorUsize =
      19 * len / 20 by
    rw [p95Index, floors]
  rcases Nat.eq_zero_or_pos (len % 20) with whole | part
  · obtain ⟨twenties, rfl⟩ := Nat.dvd_of_mod_eq_zero whole
    rw [floorUsize_twenties twenties (by omega)]
    omega
  -- one twentieth on either side is more than what the constant is off
  generalize below : 19 * len / 20 = floor
  have least : 20 * floor + 1 ≤ 19 * len := by
    omega
  have most : 19 * len ≤ 20 * floor + 19 := by
    omega
  have leastQ : 20 * (floor : ℚ) + 1 ≤ 19 * len := by
    exact_mod_cast least
  have mostQ : 19 * (len : ℚ) ≤ 20 * floor + 19 := by
    exact_mod_cast most
  have capQ : (len : ℚ) ≤ 1024 := by
    exact_mod_cast cap
  have positive : (0 : ℚ) ≤ len := Nat.cast_nonneg len
  obtain ⟨low, high⟩ := share95_bounds
  have above : (floor : ℚ) ≤ len * share95.value := by
    nlinarith
  have under : len * share95.value ≤ floor + 31 / 32 := by
    nlinarith
  have holdsFloor : binary64.Holds (floor : ℚ) :=
    holds_natCast (by change floor ≤ 2 ^ 53; omega) (by decide)
  have holdsLimit : binary64.Holds ((floor : ℚ) + 31 / 32) := by
    refine ⟨32 * floor + 31, -5, ?_, by decide, by norm_num; ring⟩
    rw [abs_of_nonneg (by positivity)]
    change (32 * (floor : ℤ) + 31) ≤ 2 ^ 53
    omega
  have rounded : ((Number.ofNat len).mul share95).value =
      binary64.nearest (len * share95.value) := by
    change binary64.nearest ((Number.ofNat len : Double).value * _) = _
    rw [ofNat_value (by omega)]
  have reached := le_nearest holdsFloor (Nat.cast_nonneg floor) above
  have bounded := nearest_le holdsLimit
    ((Nat.cast_nonneg floor).trans above) under
  rw [Number.floorUsize, rounded]
  have isFloor : ⌊binary64.nearest (len * share95.value)⌋ = (floor : ℤ) := by
    rw [Int.floor_eq_iff]
    push_cast
    constructor <;> linarith
  rw [isFloor, Int.toNat_natCast]

/-! ### Recording -/

/-- Calls that settle one after the other. -/
def records (outcomes : List CallMetrics) : MetricsState :=
  outcomes.foldl recordCall .default

variable {outcomes : List CallMetrics}

theorem records_concat (outcomes : List CallMetrics) (outcome : CallMetrics) :
    records (outcomes ++ [outcome]) = recordCall (records outcomes) outcome :=
  List.foldl_append

/-- A counter that saturates. -/
structure Counts (bits : Nat) (read : MetricsState → Nat)
    (amount : CallMetrics → Nat) : Prop where
  start : read .default = 0
  step : ∀ s outcome, read s ≤ 2 ^ bits - 1 →
    read (recordCall s outcome) = saturatingAdd bits (read s) (amount outcome)

theorem Counts.records_eq {bits : Nat} {read : MetricsState → Nat}
    {amount : CallMetrics → Nat} (counts : Counts bits read amount)
    (outcomes : List CallMetrics) :
    read (records outcomes) =
      min (outcomes.map amount).sum (2 ^ bits - 1) := by
  induction outcomes using List.reverseRecOn with
  | nil => simp [records, counts.start]
  | append_singleton outcomes outcome induction =>
      have bounded : read (records outcomes) ≤ 2 ^ bits - 1 := by
        rw [induction]
        exact Nat.min_le_right _ _
      rw [records_concat, counts.step _ _ bounded, induction, saturatingAdd,
        List.map_append, List.sum_append, List.map_singleton, List.sum_singleton]
      omega

theorem counts_calls : Counts 32 MetricsState.calls fun _ => 1 where
  start := rfl
  step _ _ _ := rfl

theorem counts_successes :
    Counts 32 MetricsState.successes fun outcome => outcome.success.toNat where
  start := rfl
  step s outcome bounded := by
    cases success : outcome.success with
    | false => simpa [recordCall, success, saturatingAdd] using bounded
    | true => simp [recordCall, success]

theorem counts_latencySumMs :
    Counts 128 MetricsState.latencySumMs fun outcome =>
      outcome.latencyMs.toNat where
  start := rfl
  step _ _ _ := rfl

theorem counts_totalTokensIn :
    Counts 64 MetricsState.totalTokensIn fun outcome =>
      outcome.tokensIn.toNat where
  start := rfl
  step _ _ _ := rfl

theorem counts_totalTokensOut :
    Counts 64 MetricsState.totalTokensOut fun outcome =>
      outcome.tokensOut.toNat where
  start := rfl
  step _ _ _ := rfl

theorem latencyRing_records (outcomes : List CallMetrics) :
    (records outcomes).latencyRing =
      (RingBuffer.new latencyRingCap (by decide) 0).pushes
        (outcomes.map fun outcome => outcome.latencyMs.toNat) := by
  induction outcomes using List.reverseRecOn with
  | nil => rfl
  | append_singleton outcomes outcome induction =>
      rw [records_concat, List.map_append, List.map_singleton,
        RingBuffer.pushes_append, ← induction]
      rfl

/-! ## The last calls -/

/-- The latencies of the last calls. -/
def window (outcomes : List CallMetrics) : List Nat :=
  (outcomes.map fun outcome => outcome.latencyMs.toNat).rtake latencyRingCap

/-- The ring samples the last calls. -/
theorem held_perm_window (outcomes : List CallMetrics) :
    (records outcomes).latencyRing.held.Perm (window outcomes) := by
  rw [latencyRing_records, window, ← RingBuffer.recent_pushes]
  exact RingBuffer.held_perm_recent _

theorem length_window (outcomes : List CallMetrics) :
    (window outcomes).length = min outcomes.length latencyRingCap := by
  rw [window, List.rtake, List.length_drop, List.length_map]
  omega

/-- What the ring has forgotten. -/
def forgotten (outcomes : List CallMetrics) : List Nat :=
  (outcomes.map fun outcome => outcome.latencyMs.toNat).rdrop latencyRingCap

theorem sum_forgotten_window (outcomes : List CallMetrics) :
    (outcomes.map fun outcome => outcome.latencyMs.toNat).sum =
      (forgotten outcomes).sum + (window outcomes).sum := by
  rw [← List.sum_append, forgotten, window, List.rdrop, List.rtake,
    List.take_append_drop]

theorem length_samples (outcomes : List CallMetrics) :
    ((records outcomes).latencyRing.held.insertionSort (· ≤ ·)).length =
      (window outcomes).length := by
  rw [(List.perm_insertionSort _ _).length_eq,
    (held_perm_window outcomes).length_eq]

/-- The sample is a quantile of the last calls. -/
theorem p95_window (some : outcomes ≠ []) :
    ∃ sample ∈ window outcomes,
      (snapshot (records outcomes)).p95LatencyMs = .ofNat sample ∧
      20 * (window outcomes).countP (fun latency => latency < sample) ≤
        19 * (window outcomes).length ∧
      19 * (window outcomes).length <
        20 * (window outcomes).countP (fun latency => latency ≤ sample) := by
  have positive : 0 < (window outcomes).length := by
    have nonempty := List.length_pos_iff.mpr some
    rw [length_window]
    exact Nat.lt_min.mpr ⟨nonempty, by decide⟩
  have few : (window outcomes).length ≤ latencyRingCap := by
    rw [length_window]
    exact Nat.min_le_right _ _
  generalize size : (window outcomes).length = len at positive few ⊢
  have index := p95Index_eq few
  obtain ⟨found, at_⟩ : ∃ found,
      ((records outcomes).latencyRing.held.insertionSort
        (· ≤ ·))[p95Index len]? = Option.some found := by
    have inside : p95Index len <
        ((records outcomes).latencyRing.held.insertionSort (· ≤ ·)).length := by
      rw [length_samples, size, index]
      omega
    exact ⟨_, List.getElem?_eq_getElem inside⟩
  obtain ⟨below, above⟩ := countP_at_rank at_
  rw [(held_perm_window outcomes).countP_eq, index] at below above
  have sampled := (List.mem_insertionSort _).mp (List.mem_of_getElem? at_)
  refine ⟨found, (held_perm_window outcomes).mem_iff.mp sampled, ?_, by omega,
    by omega⟩
  rw [snapshot]
  dsimp only
  rw [length_samples, size, at_]
  rfl

/-- The mean of a number of samples, as it is computed. -/
def mean (sum count : Nat) : Double :=
  (Number.ofNat sum).div (.ofNat count)

theorem avg_eq (some : outcomes ≠ []) :
    (snapshot (records outcomes)).avgLatencyMs =
      mean (records outcomes).latencySumMs (window outcomes).length := by
  rw [snapshot]
  dsimp only
  rw [length_samples, if_neg]
  · rfl
  · have nonempty := List.length_pos_iff.mpr some
    rw [length_window]
    exact (Nat.lt_min.mpr ⟨nonempty, by decide⟩).ne'

/-- Small sums have different means over a full ring, since a division by a power
of two is exact. -/
theorem mean_inj {left right : Nat} (smallLeft : left ≤ 2 ^ 53)
    (smallRight : right ≤ 2 ^ 53)
    (same : mean left latencyRingCap = mean right latencyRingCap) :
    left = right := by
  have exact_ (sum : Nat) (small : sum ≤ 2 ^ 53) :
      (mean sum latencyRingCap).value = sum / 1024 := by
    have holds : binary64.Holds ((sum : ℚ) / 1024) := by
      refine ⟨sum, -10, ?_, by decide, by norm_num; ring⟩
      rw [Nat.abs_cast]
      exact_mod_cast small
    change binary64.nearest ((Number.ofNat sum : Double).value /
      (Number.ofNat 1024 : Double).value) = _
    rw [ofNat_value small, ofNat_value (by norm_num)]
    exact nearest_of_holds holds
  have values := congrArg Number.value same
  rw [exact_ left smallLeft, exact_ right smallRight] at values
  have casts : (left : ℚ) = right := by
    linarith
  exact_mod_cast casts

/-- The mean is that of the last calls as long as nothing is forgotten that
took any time. -/
theorem avg_window_iff (some : outcomes ≠ [])
    (small : (outcomes.map fun outcome => outcome.latencyMs.toNat).sum ≤ 2 ^ 53) :
    (snapshot (records outcomes)).avgLatencyMs =
        mean (window outcomes).sum (window outcomes).length ↔
      ∀ latency ∈ forgotten outcomes, latency = 0 := by
  rw [sum_forgotten_window] at small
  rw [avg_eq some, counts_latencySumMs.records_eq, sum_forgotten_window,
    ← List.sum_eq_zero_iff_forall_eq_nat, Nat.min_eq_left (by omega)]
  constructor
  · intro same
    rcases Nat.lt_or_ge outcomes.length latencyRingCap with few | many
    · have nothing : forgotten outcomes = [] := by
        rw [forgotten, List.rdrop, List.take_eq_nil_iff, List.length_map]
        omega
      rw [nothing]
      rfl
    · have full : (window outcomes).length = latencyRingCap := by
        rw [length_window, Nat.min_eq_right many]
      rw [full] at same
      have equal := mean_inj small (by omega) same
      omega
  · intro nothing
    rw [nothing, Nat.zero_add]

/-- The tail is that of the last calls, and the mean, of the sum of all calls, is
theirs only as long as the forgotten ones took no time. -/
theorem snapshot_window (outcomes : List CallMetrics) (some : outcomes ≠ []) :
    let shot := snapshot (records outcomes)
    let total := (outcomes.map fun outcome => outcome.latencyMs.toNat).sum
    (∃ sample ∈ window outcomes, shot.p95LatencyMs = .ofNat sample ∧
      20 * (window outcomes).countP (fun latency => latency < sample) ≤
        19 * (window outcomes).length ∧
      19 * (window outcomes).length <
        20 * (window outcomes).countP (fun latency => latency ≤ sample)) ∧
      shot.avgLatencyMs =
        mean (min total (2 ^ 128 - 1)) (window outcomes).length ∧
      (total ≤ 2 ^ 53 →
        (shot.avgLatencyMs = mean (window outcomes).sum (window outcomes).length ↔
          ∀ latency ∈ forgotten outcomes, latency = 0)) := by
  refine ⟨p95_window some, ?_, avg_window_iff some⟩
  rw [avg_eq some, counts_latencySumMs.records_eq]

def quickCall : CallMetrics where
  success := true
  latencyMs := 7
  tokensIn := 12
  tokensOut := 5
  model := "m".toList

/-- A call that takes time, and a full ring of calls that take none. -/
def longRun : List CallMetrics :=
  quickCall :: List.replicate latencyRingCap { quickCall with latencyMs := 0 }

/-- The mean of a single call is its own; behind the full ring it still counts
the call that has left. -/
theorem snapshot_window_quick :
    (∃ sample ∈ window [quickCall],
      (snapshot (records [quickCall])).p95LatencyMs = .ofNat sample) ∧
      (snapshot (records [quickCall])).avgLatencyMs = mean 7 1 ∧
      (snapshot (records longRun)).avgLatencyMs ≠
        mean (window longRun).sum (window longRun).length := by
  obtain ⟨⟨sample, member, p95, -⟩, -, quick⟩ :=
    snapshot_window [quickCall] (List.cons_ne_nil _ _)
  obtain ⟨-, -, long⟩ := snapshot_window longRun (List.cons_ne_nil _ _)
  refine ⟨⟨sample, member, p95⟩, (quick (by decide)).mpr ?_, ?_⟩
  · have nothing : forgotten [quickCall] = [] := by decide
    rw [nothing]
    exact nofun
  · intro same
    have gone : 7 ∈ forgotten longRun := by
      decide +kernel
    cases (long (by decide +kernel)).mp same 7 gone

theorem sum_toNat_eq_countP {α : Type} (test : α → Bool) (items : List α) :
    (items.map fun item => (test item).toNat).sum = items.countP test := by
  induction items with
  | nil => rfl
  | cons item items induction =>
      rw [List.map_cons, List.sum_cons, induction, List.countP_cons]
      cases test item <;> simp [Nat.add_comm]

/-! ## The calls behind the counters -/

structure Call where
  backend : HostedBackend
  req : LlmRequest
  network : Nat → Sent
  clock : Nat → UInt64

section

variable [Parser] [FloatTexts] [StatusTexts]

def Call.run (call : Call) : List Event × Except AgentError LlmResponse :=
  complete call.backend call.req call.network call.clock

/-- What the sink is told of the calls. -/
def told (calls : List Call) : List CallMetrics :=
  calls.flatMap fun call => reports call.run.1

/-- The tokens that were paid for, as far as a caller knows. -/
def spent (tokens : LlmResponse → UInt32) :
    Except AgentError LlmResponse → Nat
  | .ok answer => (tokens answer).toNat
  | .error _ => 0

/-- What a call adds to an amount of the counters. -/
theorem sum_reports (amount : CallMetrics → Nat) (call : Call)
    (attached : call.backend.metrics = true) :
    (Vanishes call.backend call.network ∧
        ((reports call.run.1).map amount).sum = 0 ∧
        ∃ e, call.run.2 = .error e) ∨
      ¬ Vanishes call.backend call.network ∧
        ∃ latencyMs, ((reports call.run.1).map amount).sum =
          amount (outcomeOf call.backend latencyMs call.run.2) := by
  by_cases vanishes : Vanishes call.backend call.network
  · left
    obtain ⟨silent, failed⟩ :=
      reports_of_vanishes call.req call.clock vanishes
    refine ⟨vanishes, ?_, failed⟩
    rw [Call.run, silent]
    rfl
  · right
    obtain ⟨latencyMs, heard⟩ :=
      reports_of_not_vanishes call.req call.clock vanishes
    refine ⟨vanishes, latencyMs, ?_⟩
    rw [Call.run, heard, if_pos attached, List.map_singleton,
      List.sum_singleton]

/-- An amount of which a failure has none. -/
theorem sum_reports_of_result {amount : CallMetrics → Nat}
    (due : Except AgentError LlmResponse → Nat)
    (nothing : ∀ e, due (.error e) = 0)
    (same : ∀ backend latencyMs result,
      amount (outcomeOf backend latencyMs result) = due result)
    (call : Call) (attached : call.backend.metrics = true) :
    ((reports call.run.1).map amount).sum = due call.run.2 := by
  rcases sum_reports amount call attached with ⟨-, silent, e, failed⟩ |
    ⟨-, latencyMs, heard⟩
  · rw [silent, failed, nothing]
  · rw [heard, same]

theorem sum_told {amount : CallMetrics → Nat} {due : Call → Nat}
    {calls : List Call}
    (each : ∀ call ∈ calls, ((reports call.run.1).map amount).sum = due call) :
    ((told calls).map amount).sum = (calls.map due).sum := by
  induction calls with
  | nil => rfl
  | cons call calls induction =>
      obtain ⟨first, rest⟩ := List.forall_mem_cons.mp each
      rw [told, List.flatMap_cons, List.map_append, List.sum_append, first,
        List.map_cons, List.sum_cons]
      congr 1
      exact induction rest

/-- A counter after calls that settle in any order. -/
theorem Counts.told_eq {bits : Nat} {read : MetricsState → Nat}
    {amount : CallMetrics → Nat} (counts : Counts bits read amount)
    {due : Call → Nat} {calls : List Call}
    (each : ∀ call ∈ calls, ((reports call.run.1).map amount).sum = due call)
    (order : outcomes.Perm (told calls)) :
    read (records outcomes) = min (calls.map due).sum (2 ^ bits - 1) := by
  rw [counts.records_eq, (order.map amount).sum_eq, sum_told each]

open Classical in
/-- Whatever the order in which the calls settle, the counters are those of the
calls, but for the ones that end in a success that cannot be read, which the
caller sees fail. -/
theorem snapshot_told (calls : List Call)
    (attached : ∀ call ∈ calls, call.backend.metrics = true)
    {outcomes : List CallMetrics} (order : outcomes.Perm (told calls)) :
    let shot := snapshot (records outcomes)
    shot.calls =
        min (calls.countP fun call => ¬ Vanishes call.backend call.network)
          (2 ^ 32 - 1) ∧
      shot.successes =
        min (calls.countP fun call => call.run.2.isOk) (2 ^ 32 - 1) ∧
      shot.totalTokensIn =
        min (calls.map fun call => spent LlmResponse.inputTokens call.run.2).sum
          (2 ^ 64 - 1) ∧
      shot.totalTokensOut =
        min (calls.map fun call => spent LlmResponse.outputTokens call.run.2).sum
          (2 ^ 64 - 1) ∧
      ∀ call ∈ calls, Vanishes call.backend call.network →
        ∃ e, call.run.2 = .error e := by
  refine ⟨?_, ?_, ?_, ?_, ?_⟩
  · rw [← sum_toNat_eq_countP]
    apply counts_calls.told_eq _ order
    intro call member
    rcases sum_reports (fun _ => 1) call (attached call member) with
      ⟨vanishes, silent, -⟩ | ⟨heard, latencyMs, one⟩
    · rw [silent, decide_eq_false (not_not.mpr vanishes)]
      rfl
    · rw [one, decide_eq_true heard]
      rfl
  · rw [← sum_toNat_eq_countP]
    apply counts_successes.told_eq _ order
    intro call member
    apply sum_reports_of_result (fun result => result.isOk.toNat)
      (fun _ => rfl) _ call (attached call member)
    intro backend latencyMs result
    cases result <;> rfl
  · apply counts_totalTokensIn.told_eq _ order
    intro call member
    apply sum_reports_of_result (spent _) (fun _ => rfl) _ call
      (attached call member)
    intro backend latencyMs result
    cases result <;> rfl
  · apply counts_totalTokensOut.told_eq _ order
    intro call member
    apply sum_reports_of_result (spent _) (fun _ => rfl) _ call
      (attached call member)
    intro backend latencyMs result
    cases result <;> rfl
  · intro call _ vanishes
    exact (reports_of_vanishes call.req call.clock vanishes).2

end

/-! ## Two calls -/

def envelope : Json :=
  .object [
    ("choices".toList, .array [.object [
      ("finish_reason".toList, .string "stop".toList),
      ("message".toList, .object [("content".toList, .string "ok".toList)])]]),
    ("usage".toList, .object [
      ("completion_tokens".toList, .number ['5']),
      ("prompt_tokens".toList, .number "12".toList)])]

def envelopeText : Str :=
  SerdeJson.print SerdeJson.compact 0 envelope

/-- A parser of one text. -/
@[reducible] def envelopeParser : Parser where
  tree text := if text = envelopeText then some envelope else none
  textError _ _ := "expected value at line 1 column 1".toList
  valueError _ _ := []

@[reducible] def wholeFloats : FloatTexts where
  asF64 _ := ⟨0⟩
  ofF32 _ := .number "0.0".toList
  ofF64 _ := .number "0.0".toList

@[reducible] def bareStatus : StatusTexts where
  display := Nat.toDigits 10

def liveBackend : HostedBackend :=
  { HostedBackend.new AIMLAPIBackend.provider "key".toList "m".toList with
    metrics := true }

/-- A call that is answered at last, or one whose answer is no JSON. -/
def twoCalls : List Call :=
  [(fun attempt => .ok ⟨if attempt = 0 then 429 else 200, .ok envelopeText⟩),
    (fun _ => .ok ⟨200, .ok "<html>".toList⟩)].map fun network =>
      { backend := liveBackend
        req := ⟨[], "question".toList, 64, ⟨0⟩, none, none, none⟩
        network := network
        clock := fun _ => 130 }

section

attribute [local instance] envelopeParser wholeFloats bareStatus

theorem snapshot_told_two :
    let shot := snapshot (records (told twoCalls))
    shot.successes = 1 ∧ shot.totalTokensIn = 12 ∧ shot.totalTokensOut = 5 := by
  have attached : ∀ call ∈ twoCalls, call.backend.metrics = true := by
    intro call member
    obtain ⟨network, -, rfl⟩ := List.mem_map.mp member
    rfl
  obtain ⟨-, successes, tokensIn, tokensOut, -⟩ :=
    snapshot_told twoCalls attached (.refl _)
  refine ⟨successes.trans ?_, tokensIn.trans ?_, tokensOut.trans ?_⟩ <;> decide

end

end TrustLayer.ThemisCompliance.CallMetrics
