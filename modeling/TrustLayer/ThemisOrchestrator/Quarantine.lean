import TrustLayer.Library.Recent
import TrustLayer.ThemisOrchestrator.Defense

/-!
# Quarantine over a history of calls

The monitor keeps a counter and a flag for each agent.  They follow the agent's
own messages since it last mentioned another agent or was released.  The written
policy speaks of the longer history since the release.
-/

namespace TrustLayer.ThemisOrchestrator

open TrustLayer.Library

namespace RogueMonitor

inductive Call where
  | message (agent : Str) (mentionedAnother : Bool)
  | unquarantine (agent : Str)
  deriving DecidableEq

namespace Call

def agent : Call → Str
  | .message agent _ => agent
  | .unquarantine agent => agent

def isUnmentioned : Call → Bool
  | .message _ mentionedAnother => !mentionedAnother
  | .unquarantine _ => false

def isLift : Call → Bool
  | .message _ _ => false
  | .unquarantine _ => true

end Call

def apply (monitor : RogueMonitor) : Call → RogueMonitor
  | .message agent mentionedAnother =>
      (monitor.recordMessage agent mentionedAnother).2
  | .unquarantine agent => monitor.unquarantine agent

/-- A new monitor behind the calls. -/
def after (threshold : UInt32) (calls : List Call) : RogueMonitor :=
  calls.foldl apply (withThreshold threshold)

/-! ## The policy -/

def ownCalls (agent : Str) (calls : List Call) : List Call :=
  calls.filter fun call => decide (call.agent = agent)

/-- How many messages the agent has sent since its last `unquarantine` and its
last mention of another agent. -/
def unmentioned (agent : Str) (calls : List Call) : Nat :=
  trailing Call.isUnmentioned (ownCalls agent calls)

/-- Quarantine behind the calls: too many messages without a mention, of the
agent's own, until it mentions another one. -/
structure Released (threshold : UInt32) (calls : List Call) : Prop where
  quarantined : ∀ agent, (after threshold calls).isQuarantined agent = true ↔
    threshold.toNat ≤ unmentioned agent calls
  kept : ∀ agent, (after threshold calls).isQuarantined agent = true →
    (after threshold (calls ++ [.message agent false])).isQuarantined agent =
      true
  lifted : ∀ agent,
    (after threshold (calls ++ [.message agent true])).isQuarantined agent =
      false
  alone : ∀ agent, (after threshold calls).isQuarantined agent =
    (after threshold (ownCalls agent calls)).isQuarantined agent

/-- The messages of the agent since its last `unquarantine`. -/
def sinceLift (agent : Str) (calls : List Call) : List Call :=
  (ownCalls agent calls).rtakeWhile fun call => !call.isLift

def Earned (threshold : UInt32) (agent : Str) (calls : List Call) : Prop :=
  HasStreak Call.isUnmentioned threshold.toNat (sinceLift agent calls)

/-- Quarantine follows the policy wherever the run of calls is cut: it is
earned, no message of the agent lifts it, and it is a matter of the agent's own
calls. -/
structure Sticky (threshold : UInt32) (calls : List Call) : Prop where
  earned : ∀ past, past <+: calls → ∀ agent,
    (after threshold past).isQuarantined agent = true ↔
      Earned threshold agent past
  kept : ∀ past agent mentionedAnother,
    past ++ [.message agent mentionedAnother] <+: calls →
    (after threshold past).isQuarantined agent = true →
    (after threshold (past ++ [.message agent mentionedAnother])).isQuarantined
      agent = true
  alone : ∀ past, past <+: calls → ∀ agent,
    (after threshold past).isQuarantined agent =
      (after threshold (ownCalls agent past)).isQuarantined agent

/-- Whoever mentions another agent is not quarantined then. -/
def MentionsFreely (threshold : UInt32) (calls : List Call) : Prop :=
  ∀ past agent, past ++ [.message agent true] <+: calls →
    (after threshold past).isQuarantined agent = false

/-! ## Steps -/

section

variable {monitor : RogueMonitor} {threshold : UInt32} {agent other : Str}
  {calls : List Call} {call : Call}

theorem after_concat :
    after threshold (calls ++ [call]) = (after threshold calls).apply call := by
  rw [after, after, List.foldl_append]
  rfl

@[simp] theorem apply_threshold :
    (monitor.apply call).threshold = monitor.threshold := by
  cases call with
  | message agent mentionedAnother =>
      cases mentionedAnother with
      | false => exact observed_threshold
      | true => rfl
  | unquarantine agent => rfl

theorem after_threshold : (after threshold calls).threshold = threshold := by
  induction calls using List.reverseRecOn with
  | nil => rfl
  | append_singleton calls call induction =>
      rw [after_concat, apply_threshold, induction]

/-- A call is a matter of its own agent. -/
theorem apply_of_ne (different : call.agent ≠ agent) :
    (monitor.apply call).count agent = monitor.count agent ∧
      (monitor.apply call).isQuarantined agent =
        monitor.isQuarantined agent := by
  have apart : agent ≠ call.agent := Ne.symm different
  cases call with
  | message sender mentionedAnother =>
      cases mentionedAnother with
      | false =>
          exact ⟨observed_count_of_ne apart, observed_isQuarantined_of_ne apart⟩
      | true =>
          simp [apply, recordMessage, count, isQuarantined,
            Function.update_of_ne (show agent ≠ sender from apart)]
  | unquarantine sender =>
      simp [apply, unquarantine, count, isQuarantined,
        Function.update_of_ne (show agent ≠ sender from apart)]

theorem apply_mention :
    (monitor.apply (.message agent true)).count agent = 0 ∧
      (monitor.apply (.message agent true)).isQuarantined agent = false := by
  simp [apply, recordMessage, count, isQuarantined]

theorem apply_unquarantine :
    (monitor.apply (.unquarantine agent)).count agent = 0 ∧
      (monitor.apply (.unquarantine agent)).isQuarantined agent = false := by
  simp [apply, unquarantine, count, isQuarantined]

/-! ## The history -/

theorem ownCalls_concat_self (same : call.agent = agent) :
    ownCalls agent (calls ++ [call]) = ownCalls agent calls ++ [call] := by
  simp [ownCalls, List.filter_append, same]

theorem ownCalls_concat_of_ne (different : call.agent ≠ agent) :
    ownCalls agent (calls ++ [call]) = ownCalls agent calls := by
  simp [ownCalls, List.filter_append, different]

theorem sinceLift_concat_of_ne (different : call.agent ≠ agent) :
    sinceLift agent (calls ++ [call]) = sinceLift agent calls := by
  rw [sinceLift, ownCalls_concat_of_ne different, sinceLift]

theorem sinceLift_message {mentionedAnother : Bool} :
    sinceLift agent (calls ++ [.message agent mentionedAnother]) =
      sinceLift agent calls ++ [.message agent mentionedAnother] := by
  rw [sinceLift, ownCalls_concat_self (show Call.agent _ = agent from rfl),
    List.rtakeWhile_concat_pos _ _ _ (by rfl), sinceLift]

theorem sinceLift_unquarantine :
    sinceLift agent (calls ++ [.unquarantine agent]) = [] := by
  rw [sinceLift, ownCalls_concat_self (show Call.agent _ = agent from rfl),
    List.rtakeWhile_concat_neg _ _ _ (by simp [Call.isLift])]

theorem earned_concat_message {mentionedAnother : Bool} :
    Earned threshold agent (calls ++ [.message agent mentionedAnother]) ↔
      Earned threshold agent calls ∨ threshold.toNat ≤
        trailing Call.isUnmentioned
          (sinceLift agent calls ++ [.message agent mentionedAnother]) := by
  rw [Earned, sinceLift_message, hasStreak_concat_iff, Earned]

theorem unmentioned_concat_of_ne (different : call.agent ≠ agent) :
    unmentioned agent (calls ++ [call]) = unmentioned agent calls := by
  rw [unmentioned, ownCalls_concat_of_ne different, unmentioned]

theorem unmentioned_message :
    unmentioned agent (calls ++ [.message agent false]) =
      unmentioned agent calls + 1 := by
  rw [unmentioned, ownCalls_concat_self (show Call.agent _ = agent from rfl),
    trailing_concat_of_pos rfl, unmentioned]

/-- A mention and a release begin a new count. -/
theorem unmentioned_concat_of_self (same : call.agent = agent)
    (ends : call.isUnmentioned = false) :
    unmentioned agent (calls ++ [call]) = 0 := by
  rw [unmentioned, ownCalls_concat_self same,
    trailing_concat_of_neg (by simp [ends])]

theorem unmentioned_mention :
    unmentioned agent (calls ++ [.message agent true]) = 0 := by
  apply unmentioned_concat_of_self
  · rfl
  · rfl

theorem unmentioned_unquarantine :
    unmentioned agent (calls ++ [.unquarantine agent]) = 0 := by
  apply unmentioned_concat_of_self
  · rfl
  · rfl

/-- What the monitor keeps of an agent follows the agent's own messages. -/
structure Tracks (monitor : RogueMonitor) (agent : Str) (calls : List Call) :
    Prop where
  count : monitor.count agent = UInt32.ofNat (unmentioned agent calls)
  flag : monitor.isQuarantined agent = true ↔
    monitor.threshold.toNat ≤ unmentioned agent calls

theorem not_le_zero (positive : 0 < threshold) : ¬ threshold.toNat ≤ 0 :=
  Nat.not_le_of_lt (UInt32.lt_iff_toNat_lt.mp positive)

theorem tracks_new (positive : 0 < threshold) :
    Tracks (withThreshold threshold) agent [] := by
  constructor
  · rfl
  · exact iff_of_false Bool.false_ne_true (not_le_zero positive)

/-- Below the threshold the counter has not wrapped around. -/
theorem Tracks.reaches_iff (tracks : Tracks monitor agent calls)
    (short : unmentioned agent calls < monitor.threshold.toNat) :
    monitor.threshold ≤ monitor.count agent + 1 ↔
      monitor.threshold.toNat ≤ unmentioned agent calls + 1 := by
  have bound := monitor.threshold.toNat_lt
  rw [UInt32.le_iff_toNat_le, tracks.count, UInt32.toNat_add,
    UInt32.toNat_ofNat']
  simp only [UInt32.reduceToNat]
  omega

theorem Tracks.message (tracks : Tracks monitor agent calls) :
    Tracks (monitor.apply (.message agent false)) agent
      (calls ++ [.message agent false]) := by
  constructor
  · rw [unmentioned_message]
    refine observed_count_self.trans ?_
    rw [tracks.count, UInt32.ofNat_add]
    rfl
  · rw [apply_threshold, unmentioned_message]
    refine (Bool.eq_iff_iff.mp observed_isQuarantined_self).trans ?_
    rw [Bool.or_eq_true, decide_eq_true_eq, tracks.flag]
    rcases Nat.lt_or_ge (unmentioned agent calls) monitor.threshold.toNat with
      short | long
    · rw [tracks.reaches_iff short]
      omega
    · exact iff_of_true (Or.inr long) (Nat.le_succ_of_le long)

/-- A call that clears the agent's entries, and begins a new count. -/
theorem tracks_cleared (positive : 0 < monitor.threshold)
    (same : call.agent = agent) (ends : call.isUnmentioned = false)
    (cleared : (monitor.apply call).count agent = 0 ∧
      (monitor.apply call).isQuarantined agent = false) :
    Tracks (monitor.apply call) agent (calls ++ [call]) := by
  have none := @unmentioned_concat_of_self agent calls call same ends
  constructor
  · rw [none, cleared.1]
    rfl
  · rw [apply_threshold, none, cleared.2]
    exact iff_of_false Bool.false_ne_true (not_le_zero positive)

theorem Tracks.step (tracks : Tracks monitor agent calls)
    (positive : 0 < monitor.threshold) :
    Tracks (monitor.apply call) agent (calls ++ [call]) := by
  by_cases same : call.agent = agent
  · cases call with
    | message sender mentionedAnother =>
        obtain rfl : sender = agent := same
        cases mentionedAnother with
        | false => exact tracks.message
        | true => exact tracks_cleared positive rfl rfl apply_mention
    | unquarantine sender =>
        obtain rfl : sender = agent := same
        exact tracks_cleared positive rfl rfl apply_unquarantine
  · obtain ⟨counts, flags⟩ := @apply_of_ne monitor agent call same
    constructor
    · rw [unmentioned_concat_of_ne same, counts, tracks.count]
    · rw [apply_threshold, unmentioned_concat_of_ne same, flags, tracks.flag]

/-- The run lemma: the monitor follows the history. -/
theorem tracks_after (positive : 0 < threshold) (agent : Str)
    (calls : List Call) : Tracks (after threshold calls) agent calls := by
  induction calls using List.reverseRecOn with
  | nil => exact tracks_new positive
  | append_singleton calls call induction =>
      rw [after_concat]
      exact induction.step (after_threshold.symm ▸ positive)

theorem isQuarantined_after_iff (positive : 0 < threshold) :
    (after threshold calls).isQuarantined agent = true ↔
      threshold.toNat ≤ unmentioned agent calls := by
  rw [(tracks_after positive agent calls).flag, after_threshold]

theorem MentionsFreely.front {past : List Call}
    (free : MentionsFreely threshold calls) (front : past <+: calls) :
    MentionsFreely threshold past :=
  fun earlier agent inside => free earlier agent (inside.trans front)

/-- The streaks since the release end like the agent's own calls. -/
theorem trailing_sinceLift :
    trailing Call.isUnmentioned (sinceLift agent calls) =
      unmentioned agent calls := by
  induction calls using List.reverseRecOn with
  | nil => rfl
  | append_singleton calls call induction =>
      by_cases same : call.agent = agent
      · cases call with
        | message sender mentionedAnother =>
            obtain rfl : sender = agent := same
            rw [sinceLift_message]
            cases mentionedAnother with
            | false =>
                rw [trailing_concat_of_pos rfl, unmentioned_message, induction]
            | true =>
                rw [trailing_concat_of_neg (by simp [Call.isUnmentioned]),
                  unmentioned_mention]
        | unquarantine sender =>
            obtain rfl : sender = agent := same
            rw [sinceLift_unquarantine, unmentioned_unquarantine]
            rfl
      · rw [sinceLift_concat_of_ne same, unmentioned_concat_of_ne same,
          induction]

/-- Without a mention by a quarantined agent, a quarantine is earned since the
release. -/
theorem MentionsFreely.earned_iff (free : MentionsFreely threshold calls)
    (positive : 0 < threshold) (agent : Str) :
    Earned threshold agent calls ↔
      threshold.toNat ≤ unmentioned agent calls := by
  induction calls using List.reverseRecOn with
  | nil =>
      refine iff_of_false (fun earned => ?_) (not_le_zero positive)
      exact not_le_zero positive (hasStreak_nil_iff.mp earned).le
  | append_singleton calls call induction =>
      have earlier := induction (free.front (List.prefix_append _ _))
      by_cases same : call.agent = agent
      · cases call with
        | message sender mentionedAnother =>
            obtain rfl : sender = agent := same
            rw [earned_concat_message, ← sinceLift_message, trailing_sinceLift,
              earlier]
            cases mentionedAnother with
            | false =>
                rw [unmentioned_message]
                omega
            | true =>
                have unflagged := free calls sender (List.prefix_refl _)
                have below : ¬ threshold.toNat ≤ unmentioned sender calls := by
                  rw [← isQuarantined_after_iff positive, unflagged]
                  exact Bool.false_ne_true
                exact or_iff_right below
        | unquarantine sender =>
            obtain rfl : sender = agent := same
            rw [Earned, sinceLift_unquarantine, hasStreak_nil_iff,
              unmentioned_unquarantine]
            exact Nat.le_zero.symm
      · rw [Earned, sinceLift_concat_of_ne same,
          unmentioned_concat_of_ne same]
        exact earlier

/-! ## Other agents -/

theorem apply_congr {left right : RogueMonitor}
    (thresholds : left.threshold = right.threshold)
    (counts : left.count call.agent = right.count call.agent)
    (flags : left.isQuarantined call.agent = right.isQuarantined call.agent) :
    (left.apply call).count call.agent = (right.apply call).count call.agent ∧
      (left.apply call).isQuarantined call.agent =
        (right.apply call).isQuarantined call.agent := by
  cases call with
  | message agent mentionedAnother =>
      cases mentionedAnother with
      | false =>
          change (left.observed agent).count agent =
              (right.observed agent).count agent ∧
            (left.observed agent).isQuarantined agent =
              (right.observed agent).isQuarantined agent
          rw [observed_count_self, observed_count_self,
            observed_isQuarantined_self, observed_isQuarantined_self,
            thresholds]
          exact ⟨congrArg (· + 1) counts, by rw [show left.count agent = _ from
            counts, show left.isQuarantined agent = _ from flags]; rfl⟩
      | true =>
          rw [show (Call.message agent true).agent = agent from rfl,
            apply_mention.1, apply_mention.1, apply_mention.2,
            apply_mention.2]
          exact ⟨rfl, rfl⟩
  | unquarantine agent =>
      rw [show (Call.unquarantine agent).agent = agent from rfl,
        apply_unquarantine.1, apply_unquarantine.1, apply_unquarantine.2,
        apply_unquarantine.2]
      exact ⟨rfl, rfl⟩

theorem after_ownCalls (agent : Str) (calls : List Call) :
    (after threshold calls).count agent =
        (after threshold (ownCalls agent calls)).count agent ∧
      (after threshold calls).isQuarantined agent =
        (after threshold (ownCalls agent calls)).isQuarantined agent := by
  induction calls using List.reverseRecOn with
  | nil => exact ⟨rfl, rfl⟩
  | append_singleton calls call induction =>
      obtain ⟨counts, flags⟩ := induction
      by_cases same : call.agent = agent
      · subst same
        rw [ownCalls_concat_self rfl, after_concat, after_concat]
        exact apply_congr (after_threshold.trans after_threshold.symm) counts
          flags
      · rw [ownCalls_concat_of_ne same, after_concat,
          (apply_of_ne same).1, (apply_of_ne same).2]
        exact ⟨counts, flags⟩

end

/-! ## The policy and the code -/

/-- A quarantine lasts until the agent mentions another one or is released; it
is sticky in exactly the runs of calls in which no quarantined agent mentions
another one. -/
theorem released_and_sticky_iff {threshold : UInt32} (positive : 0 < threshold)
    (calls : List Call) :
    Released threshold calls ∧
      (Sticky threshold calls ↔ MentionsFreely threshold calls) := by
  have kept : ∀ past agent,
      (after threshold past).isQuarantined agent = true →
      (after threshold (past ++ [.message agent false])).isQuarantined agent =
        true := by
    intro past agent flagged
    rw [isQuarantined_after_iff positive] at flagged ⊢
    rw [unmentioned_message]
    exact Nat.le_succ_of_le flagged
  have lifted : ∀ past agent,
      (after threshold (past ++ [.message agent true])).isQuarantined agent =
        false := by
    intro past agent
    rw [after_concat]
    exact apply_mention.2
  refine ⟨⟨?_, kept calls, lifted calls, ?_⟩, ?_, ?_⟩
  · exact fun agent => isQuarantined_after_iff positive
  · exact fun agent => (after_ownCalls agent calls).2
  · intro sticky past agent inside
    by_contra flagged
    have stays := sticky.kept past agent true inside
      (Bool.not_eq_false _ ▸ flagged)
    rw [lifted past agent] at stays
    cases stays
  · intro free
    constructor
    · intro past front agent
      rw [isQuarantined_after_iff positive,
        (free.front front).earned_iff positive]
    · intro past agent mentionedAnother inside flagged
      cases mentionedAnother with
      | true =>
          rw [free past agent inside] at flagged
          cases flagged
      | false => exact kept past agent flagged
    · intro past _ agent
      exact (after_ownCalls agent past).2

/-- Ten messages without a mention, and the quarantine lifted. -/
def liftedRun : List Call :=
  List.replicate 10 (.message "extractor".toList false) ++
    [.unquarantine "extractor".toList]

theorem liftedRun_sticky :
    Released defaultThreshold liftedRun ∧ Sticky defaultThreshold liftedRun := by
  have positive : 0 < defaultThreshold := by decide
  obtain ⟨released, sticky⟩ := released_and_sticky_iff positive liftedRun
  refine ⟨released, sticky.mpr fun past agent inside => ?_⟩
  have silent : ∀ call ∈ liftedRun, ∀ sender, call ≠ .message sender true := by
    intro call member sender
    rcases List.mem_append.mp member with spoken | lifted
    · rw [List.eq_of_mem_replicate spoken]
      simp
    · rw [List.mem_singleton.mp lifted]
      simp
  exact absurd rfl (silent (.message agent true) (inside.subset (by simp)) agent)

/-- The mention behind ten messages without one. -/
def mentionRun : List Call :=
  List.replicate 10 (.message "extractor".toList false) ++
    [.message "extractor".toList true]

/-- The agent lifts its own quarantine. -/
theorem mentionRun_not_sticky : ¬ Sticky defaultThreshold mentionRun := by
  intro sticky
  have stays := sticky.kept (List.replicate 10 (.message "extractor".toList false))
    "extractor".toList true (List.prefix_refl _) (by decide)
  revert stays
  decide

end RogueMonitor

end TrustLayer.ThemisOrchestrator
