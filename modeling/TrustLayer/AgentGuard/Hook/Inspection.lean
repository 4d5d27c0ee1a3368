import TrustLayer.AgentGuard.Firewall.Scan
import TrustLayer.AgentGuard.Hook.Budget
import TrustLayer.AgentGuard.Hook.Pathguard

/-!
# What the hook denies

The firewall decides by the surface that a text comes from.  With it and the
path guard in place, the inputs that the hook denies are those that some
component denies.
-/

namespace TrustLayer.AgentGuard.Hook

open TrustLayer.Library
open TrustLayer.AgentGuard.Policy
open TrustLayer.AgentGuard.Firewall

/-! ## Surfaces -/

def fetchText (payload : FirewallInput) (src : ContentSource) :
    Except FetchError Str :=
  match payload with
  | .inline text => .ok text
  | .file path => src (.file path)
  | .url url => src (.url url)

/-- What cannot be fetched is empty. -/
def inlineText (payload : FirewallInput) (src : ContentSource) : Str :=
  match fetchText payload src with
  | .ok text => text
  | .error _ => []

def clampToWarn (v : Verdict) : Verdict :=
  if v.tier = .block then .warn v.reason else v

section

variable [CharTables] [RegexCrate]

def scanSurface (surface : Surface) (payload : FirewallInput)
    (src : ContentSource) (thresholds : Thresholds) : Verdict :=
  match surface with
  | .readFile | .webFetch | .webSearch =>
      match fetchText payload src with
      | .ok text => scanContent text thresholds
      | .error (.ssrf rejected) =>
          .block ("firewall refused out-of-band fetch: ".toList ++
            rejected.reason)
      | .error e =>
          .warn ("firewall could not inspect content (failing to WARN): ".toList ++
            e.display)
  | .userPrompt | .bashStdout =>
      clampToWarn (scanContent (inlineText payload src) thresholds)

/-- The surfaces of which the tool has not run yet. -/
def Surface.Ahead (surface : Surface) : Prop :=
  surface = .readFile ∨ surface = .webFetch ∨ surface = .webSearch

/-- What a fetch can come to that is blocked. -/
inductive Hostile (thresholds : Thresholds) : Except FetchError Str → Prop where
  | content {text : Str} {hit : Hit} (matched : Matches text hit)
      (severe : thresholds.blockAt ≤ hit.2) : Hostile thresholds (.ok text)
  | refused (rejected : SsrfRejected) :
      Hostile thresholds (.error (.ssrf rejected))

/-- What a fetch comes to that is passed. -/
inductive Harmless (thresholds : Thresholds) :
    Except FetchError Str → Prop where
  | content {text : Str}
      (mild : ∀ hit, Matches text hit →
        hit.2 < thresholds.blockAt ∧ hit.2 < thresholds.warnAt) :
      Harmless thresholds (.ok text)

variable {surface : Surface} {payload : FirewallInput} {src : ContentSource}
  {thresholds : Thresholds}

theorem harmless_ok_iff {text : Str} :
    Harmless thresholds (.ok text) ↔
      ∀ hit, Matches text hit →
        hit.2 < thresholds.blockAt ∧ hit.2 < thresholds.warnAt := by
  constructor
  · intro harmless
    cases harmless with
    | content mild => exact mild
  · exact .content

theorem scanSurface_of_ahead (ahead : surface.Ahead) :
    scanSurface surface payload src thresholds =
      scanSurface .readFile payload src thresholds := by
  rcases ahead with rfl | rfl | rfl
  · rfl
  · rfl
  · rfl

theorem scanSurface_block_iff (ahead : surface.Ahead) :
    (scanSurface surface payload src thresholds).tier = .block ↔
      Hostile thresholds (fetchText payload src) := by
  rw [scanSurface_of_ahead ahead, scanSurface]
  cases fetchText payload src with
  | ok text =>
      apply scanContent_block_iff.trans
      constructor
      · rintro ⟨hit, matched, severe⟩
        exact .content matched severe
      · intro hostile
        cases hostile with
        | content matched severe => exact ⟨_, matched, severe⟩
  | error e =>
      cases e with
      | ssrf rejected => exact iff_of_true rfl (.refused rejected)
      | timeout =>
          apply iff_of_false
          · exact Tier.noConfusion
          · intro hostile
            cases hostile
      | io text =>
          apply iff_of_false
          · exact Tier.noConfusion
          · intro hostile
            cases hostile

/-- Nothing passes that was not seen. -/
theorem scanSurface_allow_iff (ahead : surface.Ahead) :
    (scanSurface surface payload src thresholds).tier = .allow ↔
      Harmless thresholds (fetchText payload src) := by
  rw [scanSurface_of_ahead ahead, scanSurface]
  cases fetchText payload src with
  | ok text => exact scanContent_allow_iff.trans harmless_ok_iff.symm
  | error e =>
      apply iff_of_false
      · cases e <;> exact Tier.noConfusion
      · intro harmless
        cases harmless

omit [CharTables] [RegexCrate] in
theorem clampToWarn_tier_ne_block (v : Verdict) :
    (clampToWarn v).tier ≠ .block := by
  unfold clampToWarn
  split_ifs with blocks
  · exact Tier.noConfusion
  · exact blocks

omit [CharTables] [RegexCrate] in
theorem clampToWarn_allow_iff {v : Verdict} :
    (clampToWarn v).tier = .allow ↔ v.tier = .allow := by
  unfold clampToWarn
  split_ifs with blocks
  · simp [blocks]
  · exact Iff.rfl

theorem scanSurface_of_behind (behind : ¬ surface.Ahead) :
    scanSurface surface payload src thresholds =
      clampToWarn (scanContent (inlineText payload src) thresholds) := by
  cases surface with
  | readFile => exact absurd (.inl rfl) behind
  | webFetch => exact absurd (.inr (.inl rfl)) behind
  | webSearch => exact absurd (.inr (.inr rfl)) behind
  | userPrompt => rfl
  | bashStdout => rfl

/-- Ahead of a tool, what is hostile is blocked and only what was seen and is
harmless passes; behind it nothing is blocked. -/
theorem scanSurface_exact (surface : Surface) (payload : FirewallInput)
    (src : ContentSource) (thresholds : Thresholds) :
    (surface.Ahead →
      ((scanSurface surface payload src thresholds).tier = .block ↔
        Hostile thresholds (fetchText payload src)) ∧
      ((scanSurface surface payload src thresholds).tier = .allow ↔
        Harmless thresholds (fetchText payload src))) ∧
    (¬ surface.Ahead →
      (scanSurface surface payload src thresholds).tier ≠ .block ∧
      ((scanSurface surface payload src thresholds).tier = .allow ↔
        Harmless thresholds (.ok (inlineText payload src)))) := by
  constructor
  · intro ahead
    exact ⟨scanSurface_block_iff ahead, scanSurface_allow_iff ahead⟩
  · intro behind
    rw [scanSurface_of_behind behind, clampToWarn_allow_iff]
    exact ⟨clampToWarn_tier_ne_block _,
      scanContent_allow_iff.trans harmless_ok_iff.symm⟩

end

/-! ## Denials -/

/-- The command that the gate is asked about. -/
def gated (input : HookInput) : Option Str :=
  if input.tool = "Bash".toList then input.bashCommand else none

/-- The path that the path guard is asked about, and whether it is written. -/
def guarded (input : HookInput) : Option (Str × Bool) :=
  if input.tool = "Read".toList then input.filePath.map fun path => (path, false)
  else if input.tool = "Write".toList ∨ input.tool = "Edit".toList then
    input.filePath.map fun path => (path, true)
  else none

/-- What the firewall fetches ahead of the tool. -/
def fetched (input : HookInput) : Option FetchTarget :=
  if input.tool = "Read".toList then input.filePath.map .file
  else if input.tool = "WebFetch".toList then input.webUrl.map .url
  else if input.tool = "WebSearch".toList then input.webQuery.map .url
  else none

/-- A tool rule that holds of the input, at a severity that blocks. -/
def RuleDenies (input : HookInput) (thresholds : Thresholds)
    (rule : ConfigToolRule) : Prop :=
  rule.tool = input.tool ∧
    (∃ value, lookupArg input.toolInput rule.arg = some value ∧
      patternMatches rule.pattern value = true) ∧
    thresholds.blockAt ≤ rule.severity

section

variable [CharTables] [RegexCrate] [UnicodeTables]

/-- The host of a process that has the firewall and the path guard. -/
def Host.wired (host : Host) (env : Str → Option Str) (outside : Outside) :
    Host :=
  { host with
    scanSurface := fun surface payload thresholds =>
      Hook.scanSurface surface payload outside.fetch thresholds
    checkPath := Pathguard.checkPath env }

variable [Gate.Base64Engine]

/-- The components that are on, and what each of them denies. -/
inductive BuiltinDenies (env : Str → Option Str) (outside : Outside)
    (config : Config) (off : EnvDisable) (input : HookInput) : Prop where
  | gate {command : Str}
      (on : config.isComponentDisabled componentGate off = false)
      (asked : gated input = some command)
      (blocks : (Gate.evaluate command config).tier = .block)
  | path {path : Str} {write : Bool}
      (on : config.isComponentDisabled componentPathguard off = false)
      (asked : guarded input = some (path, write))
      (blocks : (Pathguard.checkPath env input.tool path write).tier = .block)
  | content {target : FetchTarget}
      (on : config.isComponentDisabled componentFirewall off = false)
      (asked : fetched input = some target)
      (hostile : Hostile config.effectiveThresholds (outside.fetch target))

/-- What a hook denies before a tool runs. -/
inductive Denies (host : Host) (env : Str → Option Str) (outside : Outside)
    (config : Config) (off : EnvDisable) (input : HookInput) : Prop where
  | builtin (denies : BuiltinDenies env outside config off input)
  | rule {rule : ConfigToolRule} (listed : rule ∈ config.toolRules)
      (denies : RuleDenies input config.effectiveThresholds rule)
  | policy (blocks : (policyEngineEvaluate host input config).tier = .block)

variable {host : Host} {env : Str → Option Str} {outside : Outside}
  {config : Config} {off : EnvDisable} {input : HookInput}
  {thresholds : Thresholds}

omit [CharTables] [RegexCrate] [UnicodeTables] [Gate.Base64Engine] in
theorem toolRuleStep_block_iff {best : Verdict} {rule : ConfigToolRule} :
    (toolRuleStep input thresholds best rule).tier = .block ↔
      best.tier = .block ∨ RuleDenies input thresholds rule := by
  by_cases same : rule.tool = input.tool
  · cases found : lookupArg input.toolInput rule.arg with
    | none => simp [toolRuleStep, RuleDenies, same, found]
    | some value =>
        cases matched : patternMatches rule.pattern value with
        | false => simp [toolRuleStep, RuleDenies, same, found, matched]
        | true =>
            have denies : RuleDenies input thresholds rule ↔
                severityToTier rule.severity thresholds = .block := by
              simp [RuleDenies, same, found, matched, severityToTier_block_iff]
            rw [denies]
            cases grade : severityToTier rule.severity thresholds with
            | ask => exact absurd grade (severityToTier_ne_ask _ _)
            | allow => simp [toolRuleStep, same, found, matched, grade]
            | warn =>
                simp [toolRuleStep, same, found, matched, grade,
                  maxVerdict_block_iff]
            | block =>
                simp [toolRuleStep, same, found, matched, grade,
                  maxVerdict_block_iff]
  · simp [toolRuleStep, RuleDenies, same]

omit [CharTables] [RegexCrate] [UnicodeTables] [Gate.Base64Engine] in
theorem toolRuleVerdict_block_iff :
    (toolRuleVerdict input config).tier = .block ↔
      ∃ rule ∈ config.toolRules,
        RuleDenies input config.effectiveThresholds rule := by
  have run (rules : List ConfigToolRule) (best : Verdict) :
      (rules.foldl (toolRuleStep input config.effectiveThresholds)
          best).tier = .block ↔
        best.tier = .block ∨
          ∃ rule ∈ rules,
            RuleDenies input config.effectiveThresholds rule := by
    induction rules generalizing best with
    | nil => simp
    | cons rule rules induction =>
        rw [List.foldl_cons, induction, toolRuleStep_block_iff]
        simp [or_assoc]
  rw [toolRuleVerdict, run]
  simp

omit [Gate.Base64Engine] in
theorem scanArgument_block_iff {surface : Surface} (ahead : surface.Ahead)
    {wrap : Str → FirewallInput} (target : Str → FetchTarget)
    (fetches : ∀ text, fetchText (wrap text) outside.fetch =
      outside.fetch (target text))
    (argument : Option Str) :
    (scanArgument (host.wired env outside) surface wrap argument
        thresholds).tier = .block ↔
      ∃ found, argument.map target = some found ∧
        Hostile thresholds (outside.fetch found) := by
  cases argument with
  | none => simp [scanArgument]
  | some text =>
      apply (scanSurface_block_iff ahead).trans
      rw [fetches]
      simp

theorem builtinDenies_iff :
    BuiltinDenies env outside config off input ↔
      (config.isComponentDisabled componentGate off = false ∧
        ∃ command, gated input = some command ∧
          (Gate.evaluate command config).tier = .block) ∨
      (config.isComponentDisabled componentPathguard off = false ∧
        ∃ path write, guarded input = some (path, write) ∧
          (Pathguard.checkPath env input.tool path write).tier = .block) ∨
      (config.isComponentDisabled componentFirewall off = false ∧
        ∃ target, fetched input = some target ∧
          Hostile config.effectiveThresholds (outside.fetch target)) := by
  constructor
  · intro denies
    cases denies with
    | gate on asked blocks => exact .inl ⟨on, _, asked, blocks⟩
    | path on asked blocks => exact .inr (.inl ⟨on, _, _, asked, blocks⟩)
    | content on asked hostile => exact .inr (.inr ⟨on, _, asked, hostile⟩)
  · rintro (⟨on, command, asked, blocks⟩ | ⟨on, path, write, asked, blocks⟩ |
      ⟨on, target, asked, hostile⟩)
    · exact .gate on asked blocks
    · exact .path on asked blocks
    · exact .content on asked hostile

omit [CharTables] [RegexCrate] [UnicodeTables] [Gate.Base64Engine] in
theorem switched_block_iff {switch : Bool} {verdict : Verdict} :
    (if switch then Verdict.allow else verdict).tier = .block ↔
      switch = false ∧ verdict.tier = .block := by
  cases switch with
  | true => simp
  | false => simp

omit [CharTables] [RegexCrate] [UnicodeTables] [Gate.Base64Engine] in
theorem either_block_iff {first second : Verdict} :
    (if first.tier = .block then first else second).tier = .block ↔
      first.tier = .block ∨ second.tier = .block := by
  split_ifs with blocks
  · exact iff_of_true blocks (.inl blocks)
  · exact (or_iff_right blocks).symm

omit [Gate.Base64Engine] in
theorem pathVerdict_asked_iff {tool : Str} {write : Bool}
    (asked : guarded input = input.filePath.map fun path => (path, write)) :
    (pathVerdict (host.wired env outside) input tool write).tier = .block ↔
      ∃ path write, guarded input = some (path, write) ∧
        (Pathguard.checkPath env tool path write).tier = .block := by
  unfold pathVerdict
  rw [asked]
  cases input.filePath with
  | none => simp
  | some path =>
      constructor
      · intro blocks
        exact ⟨path, write, rfl, blocks⟩
      · rintro ⟨_, _, same, blocks⟩
        cases same
        exact blocks

theorem builtin_block_iff :
    (dispatchPretooluseBuiltin (host.wired env outside) input config
        off).tier = .block ↔
      BuiltinDenies env outside config off input := by
  rw [builtinDenies_iff, dispatchPretooluseBuiltin]
  by_cases bash : input.tool = "Bash".toList
  · have others : guarded input = none ∧ fetched input = none := by
      simp [guarded, fetched, bash]
    have command : gated input = input.bashCommand := if_pos bash
    rw [if_pos bash, switched_block_iff, others.1, others.2, command]
    cases input.bashCommand with
    | none => simp
    | some command => simp
  have ungated : gated input = none := if_neg bash
  rw [if_neg bash, ungated]
  by_cases read : input.tool = "Read".toList
  · have target : fetched input = input.filePath.map .file := if_pos read
    rw [if_pos read, either_block_iff, switched_block_iff, switched_block_iff,
      pathVerdict_asked_iff (if_pos read), target,
      scanArgument_block_iff (.inl rfl) .file (fun _ => rfl)]
    simp
  rw [if_neg read]
  by_cases writes : input.tool = "Write".toList ∨ input.tool = "Edit".toList
  · have path : guarded input = input.filePath.map fun path => (path, true) :=
      (if_neg read).trans (if_pos writes)
    have unfetched : fetched input = none := by
      rcases writes with write | edit
      · simp [fetched, write]
      · simp [fetched, edit]
    rw [if_pos writes, switched_block_iff, pathVerdict_asked_iff path,
      unfetched]
    simp
  have unguarded : guarded input = none := (if_neg read).trans (if_neg writes)
  rw [if_neg writes, unguarded]
  by_cases fetch : input.tool = "WebFetch".toList
  · have target : fetched input = input.webUrl.map .url :=
      (if_neg read).trans (if_pos fetch)
    rw [if_pos fetch, switched_block_iff, target,
      scanArgument_block_iff (.inr (.inl rfl)) .url (fun _ => rfl)]
    simp
  rw [if_neg fetch]
  by_cases search : input.tool = "WebSearch".toList
  · have target : fetched input = input.webQuery.map .url :=
      (if_neg read).trans ((if_neg fetch).trans (if_pos search))
    rw [if_pos search, switched_block_iff, target,
      scanArgument_block_iff (.inr (.inr rfl)) .url (fun _ => rfl)]
    simp
  have unfetched : fetched input = none :=
    (if_neg read).trans ((if_neg fetch).trans (if_neg search))
  rw [if_neg search, unfetched]
  simp

/-! ## Entry -/

omit [CharTables] [RegexCrate] [UnicodeTables] [Gate.Base64Engine] in
theorem emit_exit_iff {event : Str} {verdict : Verdict} :
    (emit event verdict).2 = 2 ↔
      event = "PreToolUse".toList ∧ verdict.tier = .block := by
  have blocking : isBlockingEvent event = true ↔
      event = "PreToolUse".toList := beq_iff_eq
  rw [← blocking, emit]
  cases verdict.tier with
  | allow => simp
  | warn => simp
  | ask => cases isBlockingEvent event <;> simp
  | block => cases isBlockingEvent event <;> simp

omit [CharTables] [RegexCrate] [UnicodeTables] [Gate.Base64Engine] in
theorem sessionStartOutput_exit :
    (sessionStartOutput host input config off).2 = 0 := by
  unfold sessionStartOutput
  split_ifs
  · rfl
  · cases namedSession input <;> rfl

theorem dispatchPretooluse_block_iff :
    (dispatchPretooluse (host.wired env outside) input config off).tier =
        .block ↔
      Denies host env outside config off input := by
  rw [dispatchPretooluse, maxVerdict_block_iff, maxVerdict_block_iff,
    builtin_block_iff, toolRuleVerdict_block_iff]
  constructor
  · rintro ((builtin | ⟨rule, listed, denies⟩) | blocks)
    · exact .builtin builtin
    · exact .rule listed denies
    · exact .policy blocks
  · intro denies
    cases denies with
    | builtin denies => exact .inl (.inl denies)
    | rule listed denies => exact .inl (.inr ⟨_, listed, denies⟩)
    | policy blocks => exact .inr blocks

omit [CharTables] [RegexCrate] [UnicodeTables] in
theorem runWithSource_exit_iff {stdinJson : Str}
    (arrived : received host config stdinJson = some input) :
    (runWithSource host config stdinJson).2 = 2 ↔
      input.hookEventName = "PreToolUse".toList ∧
        (dispatchPretooluse host input config (readEnvDisable host)).tier =
          .block := by
  rw [runWithSource, arrived]
  by_cases starts : input.hookEventName = "SessionStart".toList
  · have other : input.hookEventName ≠ "PreToolUse".toList := by
      rw [starts]
      decide
    simp only [if_pos starts, sessionStartOutput_exit]
    apply iff_of_false
    · decide
    · intro ahead
      exact other ahead.1
  · simp only [if_neg starts]
    apply emit_exit_iff.trans
    apply and_congr_right
    intro event
    rw [dispatch, if_pos event]

/-- A hook exits with 2 exactly if it receives the call of a tool that some
component denies. -/
theorem exits_two_iff (host : Host) (env : Str → Option Str)
    (outside : Outside) (config : Config) (stdinJson : Str) :
    (runWithSource (host.wired env outside) config stdinJson).2 = 2 ↔
      ∃ input, received host config stdinJson = some input ∧
        input.hookEventName = "PreToolUse".toList ∧
        Denies host env outside config (readEnvDisable host) input := by
  cases arrived : received host config stdinJson with
  | none =>
      have wired : received (host.wired env outside) config stdinJson =
          none := arrived
      rw [runWithSource, wired]
      simp
  | some input =>
      have wired : received (host.wired env outside) config stdinJson =
          some input := arrived
      rw [runWithSource_exit_iff wired]
      constructor
      · rintro ⟨event, blocks⟩
        exact ⟨input, rfl, event, dispatchPretooluse_block_iff.mp blocks⟩
      · rintro ⟨_, same, event, denies⟩
        cases same
        exact ⟨event, dispatchPretooluse_block_iff.mpr denies⟩

end

/-! ## Switching off -/

/-- What the first switches off, the second does. -/
structure Within (first second : EnvDisable) : Prop where
  all : first.all = true → second.all = true
  names : second.all = true ∨ ∀ name ∈ first.names, name ∈ second.names

section

variable {host : Host} {config : Config} {off more : EnvDisable}
  {input : HookInput}

theorem Within.component (within : Within off more) {component : Str}
    (disabled : config.isComponentDisabled component off = true) :
    config.isComponentDisabled component more = true := by
  unfold Config.isComponentDisabled at disabled ⊢
  by_cases whole : more.all = true
  · simp [whole]
  · have part : off.all = false := by
      simpa using mt within.all whole
    have names := within.names.resolve_left whole
    simp only [part, Bool.or_false] at disabled
    simp only [Bool.eq_false_of_not_eq_true whole, Bool.or_false]
    split_ifs at disabled ⊢ with none
    · rfl
    · rcases Bool.or_eq_true_iff.mp disabled with listed | named
      · simp [listed]
      · have found := names _ (List.contains_iff_mem.mp named)
        simp [found]

theorem switched_mono {switch switch' : Bool} {verdict : Verdict}
    (within : switch = true → switch' = true) :
    (if switch' then Verdict.allow else verdict).tier.rank ≤
      (if switch then Verdict.allow else verdict).tier.rank := by
  cases switch' with
  | true => exact Nat.zero_le _
  | false =>
      have on : switch = false := Bool.eq_false_iff.mpr (mt within (by decide))
      rw [on]

theorem rank_le_three (tier : Tier) : tier.rank ≤ 3 := by
  cases tier <;> decide

theorem one_le_rank {tier : Tier} (told : tier ≠ .allow) : 1 ≤ tier.rank := by
  cases tier with
  | allow => exact absurd rfl told
  | _ => decide

/-- A guard in front of another verdict, both of them less severe. -/
theorem either_mono {guard guard' scan scan' : Verdict}
    (first : guard'.tier = .block → guard.tier = .block)
    (second : scan'.tier.rank ≤ scan.tier.rank) :
    (if guard'.tier = .block then guard' else scan').tier.rank ≤
      (if guard.tier = .block then guard else scan).tier.rank := by
  split_ifs with blocks' blocks blocks
  · rw [blocks, blocks']
  · exact absurd (first blocks') blocks
  · rw [blocks]
    exact rank_le_three _
  · exact second

variable [Gate.Base64Engine]

theorem builtin_mono (within : Within off more) :
    (dispatchPretooluseBuiltin host input config more).tier.rank ≤
      (dispatchPretooluseBuiltin host input config off).tier.rank := by
  unfold dispatchPretooluseBuiltin
  simp only
  by_cases bash : input.tool = "Bash".toList
  · simp only [if_pos bash]
    exact switched_mono within.component
  simp only [if_neg bash]
  by_cases read : input.tool = "Read".toList
  · simp only [if_pos read]
    apply either_mono
    · rw [switched_block_iff, switched_block_iff]
      rintro ⟨on, blocks⟩
      refine ⟨?_, blocks⟩
      exact Bool.eq_false_iff.mpr
        (mt within.component (Bool.eq_false_iff.mp on))
    · exact switched_mono within.component
  simp only [if_neg read]
  by_cases writes : input.tool = "Write".toList ∨ input.tool = "Edit".toList
  · simp only [if_pos writes]
    exact switched_mono within.component
  simp only [if_neg writes]
  by_cases fetch : input.tool = "WebFetch".toList
  · simp only [if_pos fetch]
    exact switched_mono within.component
  simp only [if_neg fetch]
  by_cases search : input.tool = "WebSearch".toList
  · simp only [if_pos search]
    exact switched_mono within.component
  · simp only [if_neg search]
    exact le_rfl

omit [Gate.Base64Engine] in
theorem tier_of_canaryScan {stdout : Str} {verdict : Verdict}
    (found : canaryScan host input config stdout = some verdict) :
    verdict.tier = .warn := by
  unfold canaryScan at found
  split_ifs at found
  obtain ⟨session, -, found⟩ := Option.bind_eq_some_iff.mp found
  obtain ⟨token, -, found⟩ := Option.bind_eq_some_iff.mp found
  split_ifs at found
  exact congrArg Verdict.tier (Option.some.inj found).symm

omit [Gate.Base64Engine] in
theorem rank_canaryScan {stdout : Str} :
    ((canaryScan host input config stdout).getD .allow).tier.rank ≤ 1 := by
  cases found : canaryScan host input config stdout with
  | none => exact Nat.zero_le _
  | some verdict => exact (congrArg Tier.rank (tier_of_canaryScan found)).le

omit [Gate.Base64Engine] in
/-- A scan in front of a verdict that at most warns, both of them less
severe. -/
theorem told_mono {scanned scanned' later later' : Verdict}
    (first : scanned'.tier ≠ .allow → scanned' = scanned)
    (second : later'.tier.rank ≤ later.tier.rank)
    (mild : later'.tier.rank ≤ 1) :
    (if scanned'.tier ≠ .allow then scanned' else later').tier.rank ≤
      (if scanned.tier ≠ .allow then scanned else later).tier.rank := by
  split_ifs with told' told told
  · rw [first told']
  · exact absurd (first told' ▸ told') told
  · exact mild.trans (one_le_rank told)
  · exact second

omit [Gate.Base64Engine] in
theorem switched_eq_of_told {switch switch' : Bool} {verdict : Verdict}
    (within : switch = true → switch' = true)
    (told : (if switch' then Verdict.allow else verdict).tier ≠ .allow) :
    (if switch' then Verdict.allow else verdict) =
      if switch then Verdict.allow else verdict := by
  cases switch' with
  | true => exact absurd rfl told
  | false =>
      have on : switch = false := Bool.eq_false_iff.mpr (mt within (by decide))
      rw [on]

omit [Gate.Base64Engine] in
theorem posttooluse_mono (within : Within off more) :
    (dispatchPosttooluse host input config more).tier.rank ≤
      (dispatchPosttooluse host input config off).tier.rank := by
  unfold dispatchPosttooluse
  by_cases other : input.toolName ≠ some "Bash".toList
  · simp only [if_pos other]
    exact le_rfl
  simp only [if_neg other]
  cases input.toolStdout host.renderJson with
  | none => exact le_rfl
  | some stdout =>
      apply told_mono
      · exact switched_eq_of_told within.component
      · exact switched_mono within.component
      · cases config.isComponentDisabled componentCanary more with
        | true => exact Nat.zero_le _
        | false => exact rank_canaryScan

theorem pretooluse_mono (within : Within off more) :
    (dispatchPretooluse host input config more).tier.rank ≤
      (dispatchPretooluse host input config off).tier.rank := by
  simp only [dispatchPretooluse, maxVerdict_rank]
  exact max_le_max_right _ (max_le_max_right _ (builtin_mono within))

/-- The more is switched off, the less severe a verdict. -/
theorem dispatch_mono (within : Within off more) :
    (dispatch host input config more).tier.rank ≤
      (dispatch host input config off).tier.rank := by
  unfold dispatch
  by_cases pre : input.hookEventName = "PreToolUse".toList
  · simp only [if_pos pre]
    exact pretooluse_mono within
  simp only [if_neg pre]
  by_cases post : input.hookEventName = "PostToolUse".toList
  · simp only [if_pos post]
    exact posttooluse_mono within
  simp only [if_neg post]
  by_cases prompt : input.hookEventName = "UserPromptSubmit".toList
  · simp only [if_pos prompt]
    exact switched_mono within.component
  · simp only [if_neg prompt]
    exact le_rfl

/-- The tier of what a hook answers with. -/
def decided (host : Host) (config : Config) (stdinJson : Str) : Tier :=
  match received host config stdinJson with
  | none => .allow
  | some input => (dispatch host input config (readEnvDisable host)).tier

omit [Gate.Base64Engine] in
theorem received_of_more {stdinJson : Str} {fewer : Option Str}
    (within : Within (readEnvDisable { host with disableVar := fewer })
      (readEnvDisable host))
    (arrived : received host config stdinJson = some input) :
    received { host with disableVar := fewer } config stdinJson =
      some input := by
  unfold received at arrived ⊢
  split_ifs at arrived with killed
  have alive : ¬ killSwitchActive config
      (readEnvDisable { host with disableVar := fewer }) = true := by
    intro active
    apply killed
    rcases Bool.or_eq_true_iff.mp active with disabled | all
    · exact Bool.or_eq_true_iff.mpr (.inl disabled)
    · exact Bool.or_eq_true_iff.mpr (.inr (within.all all))
  rw [if_neg alive]
  exact arrived

/-- A process that finds more switched off in its environment answers no more
severely, and exits with 2 only where the other does. -/
theorem decided_mono (host : Host) (config : Config) (stdinJson : Str)
    (fewer : Option Str)
    (within : Within (readEnvDisable { host with disableVar := fewer })
      (readEnvDisable host)) :
    (decided host config stdinJson).rank ≤
        (decided { host with disableVar := fewer } config stdinJson).rank ∧
      ((runWithSource host config stdinJson).2 = 2 →
        (runWithSource { host with disableVar := fewer } config
          stdinJson).2 = 2) := by
  cases arrived : received host config stdinJson with
  | none =>
      constructor
      · rw [decided, arrived]
        exact Nat.zero_le _
      · rw [runWithSource, arrived]
        intro exits
        cases exits
  | some input =>
      have arrives := received_of_more within arrived
      constructor
      · rw [decided, decided, arrived, arrives]
        exact dispatch_mono within
      · rw [runWithSource_exit_iff arrived, runWithSource_exit_iff arrives]
        rintro ⟨event, blocks⟩
        refine ⟨event, Tier.rank_injective (le_antisymm (rank_le_three _) ?_)⟩
        have most := @pretooluse_mono host config _ _ input _ within
        rw [blocks] at most
        exact most

end

def lsHost : Host :=
  { oneCallHost with disableVar := some "gate, firewall".toList }

theorem decided_mono_ls :
    (@decided .standard lsHost oneCallConfig lsCall).rank ≤
        (@decided .standard { lsHost with disableVar := some "gate".toList }
          oneCallConfig lsCall).rank ∧
      ((@runWithSource .standard lsHost oneCallConfig lsCall).2 = 2 →
        (@runWithSource .standard
          { lsHost with disableVar := some "gate".toList } oneCallConfig
          lsCall).2 = 2) :=
  @decided_mono .standard lsHost oneCallConfig lsCall (some "gate".toList)
    ⟨by decide, .inr (by decide)⟩

end TrustLayer.AgentGuard.Hook
