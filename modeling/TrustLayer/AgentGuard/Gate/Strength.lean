import TrustLayer.AgentGuard.Gate.Hits
import Mathlib.Order.Bounds.Basic

/-!
# The strength of a configuration

Custom blocks and packs add hits and take none away.  The tier is read off the
greatest severity of all hits, so that the order in which they are found does
not show.
-/

namespace TrustLayer.AgentGuard.Gate

open TrustLayer.Library

/-- Other custom blocks and packs. -/
def withRules (config : Config) (blocks : List CustomBlock)
    (packs : List Str) : Config :=
  { config with customBlocks := blocks, packs }

section

variable [Base64Engine]

/-! ## All hits -/

/-- The legs of the second split, in which the separators are blanks. -/
def resplitLegs (input : Normalized) : List Str :=
  resolveAssignments
    (rebuildLegs input.extraSeparators false (splitCompound input.command))

/-- A hit of the second split that blocks. -/
def ResplitHit (config : Config) (input : Normalized) (hit : Hit) : Prop :=
  (∃ leg ∈ resplitLegs input, LegHit config leg 0 hit) ∧
    severityToTier hit.severity config.thresholds = .block

/-- A hit of a command, whether the gate keeps it or not. -/
inductive AnyHit (config : Config) (input : Normalized) : Hit → Prop where
  | presplit {hit : Hit} :
      hit ∈ presplitHits input.command → AnyHit config input hit
  | decoded {inner payload : Str} {hit : Hit} :
      decodeAndExpand input.command 0 = some payload →
      inner ∈ splitCompound payload →
      LegHit config inner 1 hit →
      AnyHit config input hit
  | leg {leg : Str} {hit : Hit} :
      leg ∈ resolveAssignments (splitCompound input.command) →
      LegHit config leg 0 hit →
      AnyHit config input hit
  | resplit {hit : Hit} :
      input.extraSeparators ≠ [] →
      ResplitHit config input hit →
      AnyHit config input hit

def severities (command : Str) (config : Config) : Set Nat :=
  { severity | ∃ hit, AnyHit config (scanInput command config) hit ∧
    hit.severity = severity }

variable {config : Config} {input : Normalized}

/-- The second split answers with a worst hit among those that block. -/
theorem ifsResplitBlock_worst :
    IsWorst (ResplitHit config input)
      (ifsResplitBlock input.command input.extraSeparators config) := by
  have start : IsWorst (fun _ => False) none := fun _ none => none
  have scanned := @scanLegs_worst _ config (resplitLegs input) 0 _ _ start
  rw [ifsResplitBlock]
  rw [resplitLegs] at scanned
  cases result : scanLegs (resolveAssignments (rebuildLegs
      input.extraSeparators false (splitCompound input.command))) 0 config
      none with
  | none =>
      rw [result] at scanned
      intro hit resplitHit
      apply scanned hit
      exact .inr resplitHit.1
  | some worst =>
      rw [result] at scanned
      obtain ⟨found, above⟩ := scanned
      have worstFound := found.resolve_left id
      by_cases blocks :
          severityToTier worst.severity config.thresholds = .block
      · simp only [if_pos blocks]
        refine ⟨⟨worstFound, blocks⟩, fun hit resplitHit => ?_⟩
        apply above hit
        exact .inr resplitHit.1
      · simp only [if_neg blocks]
        intro hit resplitHit
        apply blocks
        rw [severityToTier_block_iff]
        calc
          config.thresholds.blockAt ≤ hit.severity :=
            severityToTier_block_iff.mp resplitHit.2
          _ ≤ worst.severity := above hit (.inr resplitHit.1)

/-- A hit that the gate does not keep is no worse than one that it keeps. -/
theorem worstHit_worst_any :
    IsWorst (AnyHit config input) (worstHit input config) := by
  have kept := worstHit_worst input config
  have resplit := @ifsResplitBlock_worst _ config input
  have covered : ∀ hit, AnyHit config input hit →
      ∃ gateHit, GateHit config input gateHit ∧
        hit.severity ≤ gateHit.severity := by
    intro hit anyHit
    cases anyHit with
    | presplit member => exact ⟨hit, .presplit member, le_rfl⟩
    | decoded payload member legHit =>
        exact ⟨hit, .decoded payload member legHit, le_rfl⟩
    | leg member legHit => exact ⟨hit, .leg member legHit, le_rfl⟩
    | resplit separators resplitHit =>
        cases result : ifsResplitBlock input.command input.extraSeparators
            config with
        | none =>
            rw [result] at resplit
            exact absurd resplitHit (resplit hit)
        | some worst =>
            rw [result] at resplit
            exact ⟨worst, .ifs separators result, resplit.2 hit resplitHit⟩
  have counted : ∀ hit, GateHit config input hit → AnyHit config input hit := by
    intro hit gateHit
    cases gateHit with
    | presplit member => exact .presplit member
    | decoded payload member legHit => exact .decoded payload member legHit
    | leg member legHit => exact .leg member legHit
    | ifs separators result =>
        apply AnyHit.resplit separators
        rw [result] at resplit
        exact resplit.1
  cases result : worstHit input config with
  | none =>
      rw [result] at kept
      intro hit anyHit
      obtain ⟨gateHit, isKept, -⟩ := covered hit anyHit
      exact kept gateHit isKept
  | some worst =>
      rw [result] at kept
      refine ⟨counted worst kept.1, fun hit anyHit => ?_⟩
      obtain ⟨gateHit, isKept, le⟩ := covered hit anyHit
      exact le.trans (kept.2 gateHit isKept)

/-! ## More rules -/

variable {blocks : List CustomBlock} {packs : List Str}

omit [Base64Engine] in
theorem ruleHits_subset (more : config.packs ⊆ packs) (leg : Str) :
    ruleHits config leg ⊆ ruleHits (withRules config blocks packs) leg := by
  have rules : activeRules config ⊆
      activeRules (withRules config blocks packs) := by
    intro rule member
    rcases List.mem_append.mp member with builtIn | packed
    · exact List.mem_append_left _ builtIn
    · obtain ⟨name, enabled, inPack⟩ := List.mem_flatMap.mp packed
      apply List.mem_append_right
      exact List.mem_flatMap.mpr ⟨name, more enabled, inPack⟩
  apply List.map_subset
  intro rule member
  obtain ⟨active, matched⟩ := List.mem_filter.mp member
  exact List.mem_filter.mpr ⟨rules active, matched⟩

omit [Base64Engine] in
theorem customHits_subset (more : config.customBlocks ⊆ blocks) (leg : Str) :
    customHits config leg ⊆ customHits (withRules config blocks packs) leg := by
  apply List.map_subset
  intro block member
  obtain ⟨listed, matched⟩ := List.mem_filter.mp member
  exact List.mem_filter.mpr ⟨more listed, matched⟩

section

variable (moreBlocks : config.customBlocks ⊆ blocks)
  (morePacks : config.packs ⊆ packs)

include moreBlocks morePacks

/-- Every hit of a leg is one under more rules. -/
theorem LegHit.withRules {leg : Str} {depth : Nat} {hit : Hit}
    (legHit : LegHit config leg depth hit) :
    LegHit (withRules config blocks packs) leg depth hit := by
  refine @LegHit.rec _ config
    (fun leg depth hit _ =>
      LegHit (Gate.withRules config blocks packs) leg depth hit)
    (fun body depth hit _ =>
      BodyHit (Gate.withRules config blocks packs) body depth hit)
    ?rule ?live ?custom ?decoded ?decodeCap ?presplit ?bodyDecoded ?printed
    ?bodyLeg leg depth hit legHit
  case rule =>
    intro leg depth hit member
    exact .rule (ruleHits_subset morePacks leg member)
  case live =>
    intro leg body depth hit shallow member _ bodyHit
    exact .live shallow member bodyHit
  case custom =>
    intro leg depth hit member
    exact .custom (customHits_subset moreBlocks leg member)
  case decoded =>
    intro leg inner payload depth hit payloadEq member _ innerHit
    exact .decoded payloadEq member innerHit
  case decodeCap =>
    intro leg depth refused deep unresolved
    exact .decodeCap refused deep unresolved
  case presplit =>
    intro body depth hit member
    exact .presplit member
  case bodyDecoded =>
    intro body inner payload depth hit shallow payloadEq member _ innerHit
    exact .decoded shallow payloadEq member innerHit
  case printed =>
    intro body leg inner depth hit member inert shallow innerMember _ innerHit
    exact .printed member inert shallow innerMember innerHit
  case bodyLeg =>
    intro body leg depth hit member executing _ legHit
    exact .leg member executing legHit

theorem AnyHit.withRules {hit : Hit} (anyHit : AnyHit config input hit) :
    AnyHit (withRules config blocks packs) input hit := by
  cases anyHit with
  | presplit member => exact .presplit member
  | decoded payload member legHit =>
      exact .decoded payload member (legHit.withRules moreBlocks morePacks)
  | leg member legHit =>
      exact .leg member (legHit.withRules moreBlocks morePacks)
  | resplit separators resplitHit =>
      obtain ⟨⟨leg, member, legHit⟩, blocked⟩ := resplitHit
      apply AnyHit.resplit separators
      exact ⟨⟨leg, member, legHit.withRules moreBlocks morePacks⟩, blocked⟩

theorem severities_subset (command : Str) :
    severities command config ⊆
      severities command (withRules config blocks packs) := by
  rintro severity ⟨hit, anyHit, same⟩
  refine ⟨hit, ?_, same⟩
  exact anyHit.withRules moreBlocks morePacks

end

/-! ## The tier -/

/-- The tier is that of the greatest severity, and there is one as soon as
there is a hit. -/
def DecidedByGreatest (command : Str) (config : Config) : Prop :=
  (severities command config = ∅ ∧ (evaluate command config).tier = .allow) ∨
    ∃ severity, IsGreatest (severities command config) severity ∧
      (evaluate command config).tier =
        severityToTier severity config.thresholds

omit [Base64Engine] in
theorem isAllowed_of_unlisted (unlisted : config.allowList = [])
    (command : Str) : config.isAllowed command = false := by
  rw [Config.isAllowed, unlisted]
  rfl

theorem decidedByGreatest (command : Str) (unlisted : config.allowList = [])
    (enabled : config.disable = false) : DecidedByGreatest command config := by
  have isWorst := @worstHit_worst_any _ config (scanInput command config)
  rw [DecidedByGreatest,
    evaluate_tier enabled (isAllowed_of_unlisted unlisted command)]
  cases result : worstHit (scanInput command config) config with
  | none =>
      left
      rw [result] at isWorst
      constructor
      · apply Set.eq_empty_of_forall_notMem
        rintro severity ⟨hit, anyHit, -⟩
        exact isWorst hit anyHit
      · rfl
  | some worst =>
      right
      rw [result] at isWorst
      refine ⟨worst.severity, ⟨⟨worst, isWorst.1, rfl⟩, ?_⟩, rfl⟩
      rintro severity ⟨hit, anyHit, rfl⟩
      exact isWorst.2 hit anyHit

/-- More severities under the same cutoffs do not lower the tier. -/
theorem DecidedByGreatest.mono {command : Str} {other : Config}
    (decided : DecidedByGreatest command config)
    (otherDecided : DecidedByGreatest command other)
    (more : severities command config ⊆ severities command other)
    (same : config.thresholds = other.thresholds) :
    (evaluate command config).tier.rank ≤
      (evaluate command other).tier.rank := by
  rcases decided with ⟨-, allowed⟩ | ⟨severity, greatest, tier⟩
  · rw [allowed]
    exact Nat.zero_le _
  · have found := more greatest.1
    rcases otherDecided with ⟨empty, -⟩ | ⟨higher, otherGreatest, otherTier⟩
    · rw [empty] at found
      exact absurd found (Set.notMem_empty severity)
    · rw [tier, otherTier, same]
      apply severityToTier_mono
      exact otherGreatest.2 found

/-- Custom blocks and packs, however they are listed, never lower the tier;
listed in another order they leave it.  The greatest severity of all hits
decides it. -/
theorem evaluate_strength (command : Str) (config : Config)
    (unlisted : config.allowList = []) (enabled : config.disable = false) :
    (∀ blocks packs, config.customBlocks ⊆ blocks → config.packs ⊆ packs →
      (evaluate command config).tier.rank ≤
        (evaluate command (withRules config blocks packs)).tier.rank) ∧
    (∀ blocks packs, config.customBlocks.Perm blocks →
      config.packs.Perm packs →
        (evaluate command (withRules config blocks packs)).tier =
          (evaluate command config).tier) ∧
    DecidedByGreatest command config := by
  have decided : ∀ blocks packs,
      DecidedByGreatest command (withRules config blocks packs) :=
    fun blocks packs => decidedByGreatest command unlisted enabled
  have here := decided config.customBlocks config.packs
  refine ⟨?_, ?_, here⟩
  · intro blocks packs moreBlocks morePacks
    apply here.mono (decided blocks packs) _ rfl
    exact severities_subset moreBlocks morePacks command
  · intro blocks packs blocksPerm packsPerm
    apply Tier.rank_injective
    apply Nat.le_antisymm
    · apply (decided blocks packs).mono here _ rfl
      exact @severities_subset _ (withRules config blocks packs)
        config.customBlocks config.packs blocksPerm.symm.subset
        packsPerm.symm.subset command
    · apply here.mono (decided blocks packs) _ rfl
      exact severities_subset blocksPerm.subset packsPerm.subset command

end

/-- A block and a pack beside the default configuration. -/
theorem evaluate_strength_chmod :
    (@evaluate .standard "chmod 777 a".toList .default).tier.rank ≤
      (@evaluate .standard "chmod 777 a".toList (withRules .default
        [{ pattern := "chmod".toList, severity := 9
           category := "mode".toList }] ["cloud".toList])).tier.rank :=
  (@evaluate_strength .standard "chmod 777 a".toList .default rfl rfl).1 _ _
    (List.nil_subset _) (List.nil_subset _)

end TrustLayer.AgentGuard.Gate
