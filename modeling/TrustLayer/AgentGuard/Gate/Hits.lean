import TrustLayer.AgentGuard.Gate.Evaluate

/-!
# The hits of a command

What the gate can find in a command, as relations without caps on the call
nesting and without the running maximum.  The scan is adequate for them: it
returns a worst hit, and it returns none only when there is none.
-/

namespace TrustLayer.AgentGuard.Gate

open TrustLayer.Library

section

variable [Base64Engine]

mutual

/-- A hit found by scanning a leg at a depth. -/
inductive LegHit (config : Config) : Str → Nat → Hit → Prop where
  | rule {leg : Str} {depth : Nat} {hit : Hit} :
      hit ∈ ruleHits config leg → LegHit config leg depth hit
  | live {leg body : Str} {depth : Nat} {hit : Hit} :
      depth < maxSubstDepth →
      body ∈ liveSubstitutionBodies leg →
      BodyHit config body (depth + 1) hit →
      LegHit config leg depth hit
  | custom {leg : Str} {depth : Nat} {hit : Hit} :
      hit ∈ customHits config leg → LegHit config leg depth hit
  | decoded {leg inner payload : Str} {depth : Nat} {hit : Hit} :
      decodeAndExpand leg depth = some payload →
      inner ∈ splitCompound payload →
      LegHit config inner (depth + 1) hit →
      LegHit config leg depth hit
  | decodeCap {leg : Str} {depth : Nat} :
      decodeAndExpand leg depth = none →
      depth + 1 ≥ maxDecodeDepth →
      hasUnresolvedDecode leg = true →
      LegHit config leg depth (decodeCapHit config leg)

/-- A hit found by scanning the body of a live substitution at a depth. -/
inductive BodyHit (config : Config) : Str → Nat → Hit → Prop where
  | presplit {body : Str} {depth : Nat} {hit : Hit} :
      hit ∈ presplitHits body → BodyHit config body depth hit
  | decoded {body inner payload : Str} {depth : Nat} {hit : Hit} :
      depth < maxDecodeDepth →
      decodeAndExpand body depth = some payload →
      inner ∈ splitCompound payload →
      LegHit config inner (depth + 1) hit →
      BodyHit config body depth hit
  | printed {body leg inner : Str} {depth : Nat} {hit : Hit} :
      leg ∈ splitCompound body →
      isNonExecutingVerb leg = true →
      depth < maxSubstDepth →
      inner ∈ liveSubstitutionBodies leg →
      BodyHit config inner (depth + 1) hit →
      BodyHit config body depth hit
  | leg {body leg : Str} {depth : Nat} {hit : Hit} :
      leg ∈ splitCompound body →
      isNonExecutingVerb leg = false →
      LegHit config leg depth hit →
      BodyHit config body depth hit

end

/-- A hit found in a command after normalization. -/
inductive GateHit (config : Config) (input : Normalized) : Hit → Prop where
  | presplit {hit : Hit} :
      hit ∈ presplitHits input.command → GateHit config input hit
  | decoded {inner payload : Str} {hit : Hit} :
      decodeAndExpand input.command 0 = some payload →
      inner ∈ splitCompound payload →
      LegHit config inner 1 hit →
      GateHit config input hit
  | leg {leg : Str} {hit : Hit} :
      leg ∈ resolveAssignments (splitCompound input.command) →
      LegHit config leg 0 hit →
      GateHit config input hit
  | ifs {hit : Hit} :
      input.extraSeparators ≠ [] →
      ifsResplitBlock input.command input.extraSeparators config = some hit →
      GateHit config input hit

end

/-! ## Worst hits -/

/-- `best` is a worst one among the hits that `found` describes. -/
def IsWorst (found : Hit → Prop) : Option Hit → Prop
  | none => ∀ hit, ¬ found hit
  | some worst => found worst ∧ ∀ hit, found hit → hit.severity ≤ worst.severity

namespace IsWorst

theorem congr {found other : Hit → Prop} {best : Option Hit}
    (worst : IsWorst found best) (same : ∀ hit, found hit ↔ other hit) :
    IsWorst other best := by
  have equal : found = other := funext fun hit => propext (same hit)
  exact equal ▸ worst

theorem consider {found : Hit → Prop} {best : Option Hit}
    (worst : IsWorst found best) (candidate : Hit) :
    IsWorst (fun hit => found hit ∨ hit = candidate)
      (Gate.consider best candidate) := by
  cases best with
  | none =>
      refine ⟨.inr rfl, ?_⟩
      rintro hit (known | rfl)
      · exact absurd known (worst hit)
      · exact le_rfl
  | some existing =>
      obtain ⟨known, above⟩ := worst
      by_cases keep : existing.severity ≥ candidate.severity
      · simp only [Gate.consider, if_pos keep]
        refine ⟨.inl known, ?_⟩
        rintro hit (foundHit | rfl)
        · exact above hit foundHit
        · exact keep
      · simp only [Gate.consider, if_neg keep]
        refine ⟨.inr rfl, ?_⟩
        rintro hit (foundHit | rfl)
        · have := above hit foundHit
          omega
        · exact le_rfl

/-- A fold whose steps each add the hits of one item adds those of all. -/
theorem foldl {α : Type} {step : Option Hit → α → Option Hit}
    {adds : α → Hit → Prop} {items : List α}
    (stepWorst : ∀ item ∈ items, ∀ found best, IsWorst found best →
      IsWorst (fun hit => found hit ∨ adds item hit) (step best item))
    {found : Hit → Prop} {best : Option Hit} (worst : IsWorst found best) :
    IsWorst (fun hit => found hit ∨ ∃ item ∈ items, adds item hit)
      (items.foldl step best) := by
  induction items generalizing found best with
  | nil => exact worst.congr (by simp)
  | cons item items induction =>
      have head := stepWorst item List.mem_cons_self found best worst
      have tail := induction
        (fun item member => stepWorst item (List.mem_cons_of_mem _ member)) head
      exact tail.congr (by simp [or_assoc])

theorem considerAll {found : Hit → Prop} {best : Option Hit}
    (worst : IsWorst found best) (hits : List Hit) :
    IsWorst (fun hit => found hit ∨ hit ∈ hits) (Gate.considerAll best hits) := by
  have folded : IsWorst
      (fun hit => found hit ∨ ∃ candidate ∈ hits, hit = candidate)
      (Gate.considerAll best hits) :=
    foldl (fun candidate _ _ _ worst => worst.consider candidate) worst
  exact folded.congr (by simp)

end IsWorst

/-! ## Inversion -/

section

variable [Base64Engine] {config : Config}

theorem depth_lt_of_decodeAndExpand {leg payload : Str} {depth : Nat}
    (decoded : decodeAndExpand leg depth = some payload) :
    depth < maxDecodeDepth := by
  by_contra deep
  simp [decodeAndExpand, Nat.le_of_not_lt deep] at decoded

/-- What the decode stage of a leg adds. -/
def DecodeHit (config : Config) (leg : Str) (depth : Nat) (hit : Hit) : Prop :=
  match decodeAndExpand leg depth with
  | some payload =>
      ∃ inner ∈ splitCompound payload, LegHit config inner (depth + 1) hit
  | none =>
      (depth + 1 ≥ maxDecodeDepth ∧ hasUnresolvedDecode leg = true) ∧
        hit = decodeCapHit config leg

theorem legHit_iff {leg : Str} {depth : Nat} {hit : Hit} :
    LegHit config leg depth hit ↔
      ((hit ∈ ruleHits config leg ∨
        (depth < maxSubstDepth ∧ ∃ body ∈ liveSubstitutionBodies leg,
          BodyHit config body (depth + 1) hit)) ∨
        hit ∈ customHits config leg) ∨ DecodeHit config leg depth hit := by
  constructor
  · intro legHit
    cases legHit with
    | rule member => exact .inl (.inl (.inl member))
    | live shallow member bodyHit =>
        exact .inl (.inl (.inr ⟨shallow, _, member, bodyHit⟩))
    | custom member => exact .inl (.inr member)
    | decoded payloadEq member innerHit =>
        right
        simp only [DecodeHit, payloadEq]
        exact ⟨_, member, innerHit⟩
    | decodeCap refused deep unresolved =>
        right
        simp only [DecodeHit, refused, and_true]
        exact ⟨deep, unresolved⟩
  · rintro (((member | ⟨shallow, body, member, bodyHit⟩) | member) | decodeHit)
    · exact .rule member
    · exact .live shallow member bodyHit
    · exact .custom member
    · unfold DecodeHit at decodeHit
      split at decodeHit
      · obtain ⟨inner, member, innerHit⟩ := decodeHit
        exact .decoded ‹_› member innerHit
      · obtain ⟨⟨deep, unresolved⟩, rfl⟩ := decodeHit
        exact .decodeCap ‹_› deep unresolved

/-- What one leg of a substitution body adds. -/
def BodyLegHit (config : Config) (leg : Str) (depth : Nat) (hit : Hit) : Prop :=
  if isNonExecutingVerb leg = true then
    depth < maxSubstDepth ∧ ∃ inner ∈ liveSubstitutionBodies leg,
      BodyHit config inner (depth + 1) hit
  else LegHit config leg depth hit

theorem bodyHit_iff {body : Str} {depth : Nat} {hit : Hit} :
    BodyHit config body depth hit ↔
      (hit ∈ presplitHits body ∨
        (depth < maxDecodeDepth ∧ ∃ payload,
          decodeAndExpand body depth = some payload ∧
            ∃ inner ∈ splitCompound payload,
              LegHit config inner (depth + 1) hit)) ∨
        ∃ leg ∈ splitCompound body, BodyLegHit config leg depth hit := by
  constructor
  · intro bodyHit
    cases bodyHit with
    | presplit member => exact .inl (.inl member)
    | decoded shallow payloadEq member innerHit =>
        exact .inl (.inr ⟨shallow, _, payloadEq, _, member, innerHit⟩)
    | printed member inert shallow innerMember innerHit =>
        refine .inr ⟨_, member, ?_⟩
        rw [BodyLegHit, if_pos inert]
        exact ⟨shallow, _, innerMember, innerHit⟩
    | leg member executing legHit =>
        refine .inr ⟨_, member, ?_⟩
        rw [BodyLegHit, if_neg (by simp [executing])]
        exact legHit
  · rintro ((member | ⟨shallow, payload, payloadEq, inner, member, innerHit⟩) |
      ⟨leg, member, legHit⟩)
    · exact .presplit member
    · exact .decoded shallow payloadEq member innerHit
    · unfold BodyLegHit at legHit
      split at legHit
      · obtain ⟨shallow, inner, innerMember, innerHit⟩ := legHit
        exact .printed member ‹_› shallow innerMember innerHit
      · exact .leg member (Bool.eq_false_iff.mpr ‹_›) legHit

/-! ## Adequacy of the scan -/

/-- The two scanning functions add exactly the hits of their argument, as long
as the limit covers the calls the caps leave. -/
private def ScansWithin (config : Config) (limit : Nat) : Prop :=
  (∀ leg depth, scanLimit depth ≤ limit → ∀ found best, IsWorst found best →
    IsWorst (fun hit => found hit ∨ LegHit config leg depth hit)
      (scanLegWithin limit leg depth config best)) ∧
  (∀ body depth, scanLimit depth + 1 ≤ limit → ∀ found best,
    IsWorst found best →
    IsWorst (fun hit => found hit ∨ BodyHit config body depth hit)
      (scanSubstitutionBodyWithin limit body depth config best))

omit [Base64Engine] in
theorem scanLimit_succ {depth : Nat} (shallow : depth < maxSubstDepth) :
    scanLimit (depth + 1) + 2 = scanLimit depth := by
  simp only [scanLimit]
  omega

private theorem scanLegs_within {limit : Nat} (scans : ScansWithin config limit)
    {depth : Nat} (enough : scanLimit depth ≤ limit) (legs : List Str)
    {found : Hit → Prop} {best : Option Hit} (worst : IsWorst found best) :
    IsWorst
      (fun hit => found hit ∨ ∃ leg ∈ legs, LegHit config leg depth hit)
      (legs.foldl (fun best leg => scanLegWithin limit leg depth config best)
        best) :=
  IsWorst.foldl (fun leg _ => scans.1 leg depth enough) worst

private theorem scanBodies_within {limit : Nat} (scans : ScansWithin config limit)
    {depth : Nat} (enough : scanLimit depth ≤ limit + 1) (bodies : List Str)
    {found : Hit → Prop} {best : Option Hit} (worst : IsWorst found best) :
    IsWorst
      (fun hit => found hit ∨ (depth < maxSubstDepth ∧
        ∃ body ∈ bodies, BodyHit config body (depth + 1) hit))
      (if depth < maxSubstDepth then
        bodies.foldl
          (fun best body =>
            scanSubstitutionBodyWithin limit body (depth + 1) config best) best
      else best) := by
  by_cases shallow : depth < maxSubstDepth
  · have covers : scanLimit (depth + 1) + 1 ≤ limit := by
      have := scanLimit_succ shallow
      omega
    rw [if_pos shallow]
    exact (IsWorst.foldl
      (fun body _ => scans.2 body (depth + 1) covers) worst).congr
        (by simp [shallow])
  · rw [if_neg shallow]
    exact worst.congr (by simp [shallow])

private theorem scanLeg_step {limit : Nat} (scans : ScansWithin config limit)
    {leg : Str} {depth : Nat} (enough : scanLimit depth ≤ limit + 1)
    {found : Hit → Prop} {best : Option Hit} (worst : IsWorst found best) :
    IsWorst (fun hit => found hit ∨ LegHit config leg depth hit)
      (scanLegWithin (limit + 1) leg depth config best) := by
  have afterRules := worst.considerAll (ruleHits config leg)
  have afterBodies :=
    scanBodies_within scans enough (liveSubstitutionBodies leg) afterRules
  have afterCustom := afterBodies.considerAll (customHits config leg)
  have afterDecode : IsWorst
      (fun hit => (((found hit ∨ hit ∈ ruleHits config leg) ∨
        (depth < maxSubstDepth ∧ ∃ body ∈ liveSubstitutionBodies leg,
          BodyHit config body (depth + 1) hit)) ∨
        hit ∈ customHits config leg) ∨ DecodeHit config leg depth hit)
      (scanLegWithin (limit + 1) leg depth config best) := by
    rw [scanLegWithin]
    cases decoded : decodeAndExpand leg depth with
    | some payload =>
        have covers : scanLimit (depth + 1) ≤ limit := by
          have shallow := depth_lt_of_decodeAndExpand decoded
          have := scanLimit_succ
            (Nat.lt_trans shallow (by decide : maxDecodeDepth < maxSubstDepth))
          omega
        simpa only [DecodeHit, decoded] using
          scanLegs_within scans covers (splitCompound payload) afterCustom
    | none =>
        by_cases capped :
            depth + 1 ≥ maxDecodeDepth ∧ hasUnresolvedDecode leg = true
        · simp only [if_pos capped]
          exact (afterCustom.consider (decodeCapHit config leg)).congr
            (by simp [DecodeHit, decoded, capped])
        · simp only [if_neg capped]
          exact afterCustom.congr fun hit => by
            simp only [DecodeHit, decoded, capped, false_and, or_false]
  refine afterDecode.congr fun hit => ?_
  rw [legHit_iff]
  simp only [or_assoc]

private theorem scanSubstitutionBody_step {limit : Nat}
    (scans : ScansWithin config limit) {body : Str} {depth : Nat}
    (enough : scanLimit depth ≤ limit) {found : Hit → Prop}
    {best : Option Hit} (worst : IsWorst found best) :
    IsWorst (fun hit => found hit ∨ BodyHit config body depth hit)
      (scanSubstitutionBodyWithin (limit + 1) body depth config best) := by
  have afterPresplit := worst.considerAll (presplitHits body)
  rw [scanSubstitutionBodyWithin]
  have legsWorst : ∀ found best, IsWorst found best →
      IsWorst
        (fun hit => found hit ∨
          ∃ leg ∈ splitCompound body, BodyLegHit config leg depth hit)
        ((splitCompound body).foldl
          (fun best leg =>
            if isNonExecutingVerb leg then
              if depth < maxSubstDepth then
                (liveSubstitutionBodies leg).foldl
                  (fun best inner =>
                    scanSubstitutionBodyWithin limit inner (depth + 1) config
                      best) best
              else best
            else scanLegWithin limit leg depth config best) best) := by
    intro found best worst
    refine IsWorst.foldl (fun leg _ found best worst => ?_) worst
    by_cases inert : isNonExecutingVerb leg = true
    · simp only [if_pos inert, BodyLegHit]
      exact scanBodies_within scans (Nat.le_succ_of_le enough)
        (liveSubstitutionBodies leg) worst
    · simp only [if_neg inert, BodyLegHit]
      exact scans.1 leg depth enough found best worst
  have bodyHits : ∀ hit, BodyHit config body depth hit ↔ _ :=
    fun hit => bodyHit_iff
  by_cases shallow : depth < maxDecodeDepth
  · simp only [if_pos shallow]
    cases decoded : decodeAndExpand body depth with
    | some payload =>
        have covers : scanLimit (depth + 1) ≤ limit := by
          have := scanLimit_succ
            (Nat.lt_trans shallow (by decide : maxDecodeDepth < maxSubstDepth))
          omega
        have afterDecode :=
          scanLegs_within scans covers (splitCompound payload) afterPresplit
        refine (legsWorst _ _ afterDecode).congr fun hit => ?_
        simp only [bodyHits, decoded, shallow, Option.some.injEq, true_and,
          exists_eq_left', or_assoc]
    | none =>
        refine (legsWorst _ _ afterPresplit).congr fun hit => ?_
        simp only [bodyHits, decoded, reduceCtorEq, false_and, exists_false,
          and_false, or_false, or_assoc]
  · simp only [if_neg shallow]
    refine (legsWorst _ _ afterPresplit).congr fun hit => ?_
    simp only [bodyHits, shallow, false_and, or_false, or_assoc]

private theorem scansWithin (config : Config) (limit : Nat) :
    ScansWithin config limit := by
  induction limit with
  | zero =>
      constructor
      · intro leg depth enough
        simp [scanLimit] at enough
      · intro body depth enough
        omega
  | succ limit scans =>
      exact ⟨fun leg depth enough found best worst =>
          scanLeg_step scans enough worst,
        fun body depth enough found best worst =>
          scanSubstitutionBody_step scans (by omega) worst⟩

theorem scanLeg_worst (leg : Str) (depth : Nat) {found : Hit → Prop}
    {best : Option Hit} (worst : IsWorst found best) :
    IsWorst (fun hit => found hit ∨ LegHit config leg depth hit)
      (scanLeg leg depth config best) :=
  (scansWithin config _).1 leg depth le_rfl found best worst

theorem scanLegs_worst (legs : List Str) (depth : Nat) {found : Hit → Prop}
    {best : Option Hit} (worst : IsWorst found best) :
    IsWorst (fun hit => found hit ∨ ∃ leg ∈ legs, LegHit config leg depth hit)
      (scanLegs legs depth config best) :=
  IsWorst.foldl (fun leg _ _ _ worst => scanLeg_worst leg depth worst) worst

/-- The scan of a command returns a worst one of its hits. -/
theorem worstHit_worst (input : Normalized) (config : Config) :
    IsWorst (GateHit config input) (worstHit input config) := by
  have start : IsWorst (fun _ => False) none := fun _ none => none
  have afterPresplit := start.considerAll (presplitHits input.command)
  have afterDecode : IsWorst
      (fun hit => hit ∈ presplitHits input.command ∨
        ∃ payload, decodeAndExpand input.command 0 = some payload ∧
          ∃ inner ∈ splitCompound payload, LegHit config inner 1 hit)
      (match decodeAndExpand input.command 0 with
        | some decoded =>
            scanLegs (splitCompound decoded) 1 config
              (considerAll none (presplitHits input.command))
        | none => considerAll none (presplitHits input.command)) := by
    cases decoded : decodeAndExpand input.command 0 with
    | some payload =>
        exact (scanLegs_worst (splitCompound payload) 1 afterPresplit).congr
          (by simp)
    | none => exact afterPresplit.congr (by simp)
  have afterLegs := @scanLegs_worst _ config
    (resolveAssignments (splitCompound input.command)) 0 _ _ afterDecode
  have complete : ∀ hit, GateHit config input hit ↔
      (((hit ∈ presplitHits input.command ∨
        ∃ payload, decodeAndExpand input.command 0 = some payload ∧
          ∃ inner ∈ splitCompound payload, LegHit config inner 1 hit) ∨
        ∃ leg ∈ resolveAssignments (splitCompound input.command),
          LegHit config leg 0 hit) ∨
        (input.extraSeparators ≠ [] ∧
          ifsResplitBlock input.command input.extraSeparators config =
            some hit)) := by
    intro hit
    constructor
    · intro gateHit
      cases gateHit with
      | presplit member => exact .inl (.inl (.inl member))
      | decoded payloadEq member legHit =>
          exact .inl (.inl (.inr ⟨_, payloadEq, _, member, legHit⟩))
      | leg member legHit => exact .inl (.inr ⟨_, member, legHit⟩)
      | ifs separators result => exact .inr ⟨separators, result⟩
    · rintro (((member | ⟨payload, payloadEq, inner, member, legHit⟩) |
        ⟨leg, member, legHit⟩) | ⟨separators, result⟩)
      · exact .presplit member
      · exact .decoded payloadEq member legHit
      · exact .leg member legHit
      · exact .ifs separators result
  unfold worstHit
  by_cases noSeparators : input.extraSeparators = []
  · simp only [noSeparators, List.isEmpty_nil, if_true]
    exact afterLegs.congr fun hit => by simp [complete, noSeparators]
  · simp only [List.isEmpty_iff, noSeparators, if_false]
    cases result :
        ifsResplitBlock input.command input.extraSeparators config with
    | some resplit =>
        refine (afterLegs.consider resplit).congr fun hit => ?_
        simp [complete, noSeparators, result, eq_comm]
    | none =>
        exact afterLegs.congr fun hit => by
          simp [complete, result]

/-! ## Tiers -/

omit [Base64Engine] in
theorem buildVerdict_tier {tier : Tier} (graded : tier ≠ .ask) (hit : Hit) :
    (buildVerdict tier hit).tier = tier := by
  cases tier with
  | ask => exact absurd rfl graded
  | allow | warn | block => rfl

/-- The tier of a worst hit. -/
def worstTier (thresholds : Thresholds) : Option Hit → Tier
  | none => .allow
  | some worst => severityToTier worst.severity thresholds

theorem evaluate_tier {command : Str} (enabled : config.disable = false)
    (listed : config.isAllowed command = false) :
    (evaluate command config).tier =
      worstTier config.thresholds (worstHit (scanInput command config) config) := by
  rw [evaluate]
  simp only [enabled, listed, Bool.false_eq_true, if_false]
  cases worstHit (scanInput command config) config with
  | none => rfl
  | some worst => exact buildVerdict_tier (severityToTier_ne_ask _ _) worst

/-- Some hit of the command is at or above a cutoff. -/
def Reaches (config : Config) (command : Str) (cutoff : Nat) : Prop :=
  ∃ hit, GateHit config (scanInput command config) hit ∧ cutoff ≤ hit.severity

theorem worst_reaches_iff {command : Str} {cutoff : Nat} :
    Reaches config command cutoff ↔
      ∃ worst, worstHit (scanInput command config) config = some worst ∧
        cutoff ≤ worst.severity := by
  have isWorst := worstHit_worst (scanInput command config) config
  constructor
  · rintro ⟨hit, gateHit, reached⟩
    cases result : worstHit (scanInput command config) config with
    | none =>
        rw [result] at isWorst
        exact absurd gateHit (isWorst hit)
    | some worst =>
        rw [result] at isWorst
        exact ⟨worst, rfl, reached.trans (isWorst.2 hit gateHit)⟩
  · rintro ⟨worst, result, reached⟩
    rw [result] at isWorst
    exact ⟨worst, isWorst.1, reached⟩

omit [Base64Engine] in
open scoped Classical in
theorem worstTier_graded (thresholds : Thresholds) (worst : Option Hit) :
    worstTier thresholds worst =
      if ∃ hit, worst = some hit ∧ thresholds.blockAt ≤ hit.severity then .block
      else if ∃ hit, worst = some hit ∧ thresholds.warnAt ≤ hit.severity then
        .warn
      else .allow := by
  cases worst with
  | none => simp [worstTier]
  | some hit => simp [worstTier, severityToTier]

omit [Base64Engine] in
theorem worstTier_block_iff {thresholds : Thresholds} {worst : Option Hit} :
    worstTier thresholds worst = .block ↔
      ∃ hit, worst = some hit ∧ thresholds.blockAt ≤ hit.severity := by
  classical
  rw [worstTier_graded]
  split_ifs <;> simp_all

theorem evaluate_block_iff {command : Str} (enabled : config.disable = false)
    (listed : config.isAllowed command = false) :
    (evaluate command config).tier = .block ↔
      Reaches config command config.thresholds.blockAt := by
  rw [evaluate_tier enabled listed, worstTier_block_iff, worst_reaches_iff]

theorem evaluate_default_block_iff {command : Str} :
    (evaluate command .default).tier = .block ↔ Reaches .default command 8 :=
  evaluate_block_iff rfl rfl

end

end TrustLayer.AgentGuard.Gate
