import TrustLayer.AgentGuard.Hook.Budget
import TrustLayer.AgentGuard.Policy.DefaultDeny
import Mathlib.Algebra.BigOperators.Group.List.Basic
import Mathlib.Algebra.Order.BigOperators.Group.List

/-!
# Budget accounting

What the counters of a `PolicySet` hold after a run of calls over any
sessions, and when a call asks.
-/

namespace TrustLayer.AgentGuard.Policy

open TrustLayer.Library
open TrustLayer.AgentGuard.Hook (ReachesBudget evaluate_of_reachesBudget)

/-! ## Runs -/

/-- An input and the configuration it is evaluated under. -/
abbrev Call :=
  HookInput × Config

def PolicySet.afterCalls (set : PolicySet) (calls : List Call) : PolicySet :=
  calls.foldl (fun set call => (evaluate set call.1 call.2).2) set

/-- The verdict on a call that follows others. -/
def verdictAfter (file : PolicyFile) (past : List Call) (call : Call) :
    Verdict :=
  (evaluate ((PolicySet.ofFile file).afterCalls past) call.1 call.2).1

/-- The tool and the tokens that a call is charged, when it reaches the budget
step. -/
def chargedAt (file : PolicyFile) (call : Call) : Option (Str × Nat) :=
  if ReachesBudget file call.2 call.1 then chargeFor call.1 else none

/-- The charges of a session, in order. -/
def chargesOf (file : PolicyFile) (session : Option Str) (calls : List Call) :
    List (Str × Nat) :=
  calls.filterMap fun call =>
    if call.1.sessionId = session then chargedAt file call else none

/-- The counters that charges add up to. -/
def tally (charges : List (Str × Nat)) : SessionCounters :=
  let ofTool (tool : Str) := charges.filter fun charge => charge.1 = tool
  { tokens := (charges.map Prod.snd).sum
    toolInvocations := charges.length
    perToolTokens := fun tool => ((ofTool tool).map Prod.snd).sum
    perToolInvocations := fun tool => (ofTool tool).length }

theorem countersExceed_tally {budgets : Budgets} {charges : List (Str × Nat)}
    {tool : Str} :
    CountersExceed budgets (tally charges) tool ↔
      CapExceeded budgets charges tool :=
  Iff.rfl

/-! ## One call -/

section

variable {set : PolicySet} {input : HookInput} {config : Config}

/-- A rule never asks. -/
theorem evaluateRules_ne_ask {file : PolicyFile} {tool : Str}
    {thresholds : Thresholds} {verdict : Verdict}
    (answers : evaluateRules file tool input thresholds = some verdict) :
    verdict.tier ≠ .ask := by
  have kept : ∀ (rules : List ToolRule) (best : Option Verdict),
      (∀ found ∈ best, found.tier ≠ .ask) →
        ∀ found ∈ rules.foldl (ruleStep input thresholds) best,
          found.tier ≠ .ask := by
    intro rules
    induction rules with
    | nil => exact fun best plain => plain
    | cons rule rules induction =>
        intro best plain
        refine induction _ fun found member => ?_
        unfold ruleStep at member
        split at member
        · cases graded : severityToTier rule.severity thresholds with
          | allow =>
              rw [graded] at member
              exact plain found member
          | ask => exact absurd graded (severityToTier_ne_ask _ _)
          | _ =>
              rw [graded] at member
              cases best with
              | none =>
                  cases member
                  simp [Verdict.warn, Verdict.block]
              | some previous =>
                  cases member
                  unfold maxVerdict
                  split
                  · simp [Verdict.warn, Verdict.block]
                  · exact plain previous rfl
        · exact plain found member
  rw [evaluateRules_eq_foldl] at answers
  exact kept _ none (by simp) verdict answers

theorem evaluate_uncharged (free : chargedAt set.file (input, config) = none) :
    (evaluate set input config).2 = set ∧
      (evaluate set input config).1.tier ≠ .ask := by
  unfold evaluate
  dsimp only
  cases answer : evaluateRules set.file input.tool input
      config.effectiveThresholds with
  | some verdict => exact ⟨rfl, evaluateRules_ne_ask answer⟩
  | none =>
      by_cases denied : set.file.defaultAction = .deny ∧
          hasExplicitAllow set.file input.tool = false
      · dsimp only
        rw [if_pos denied]
        exact ⟨rfl, by simp [Verdict.block]⟩
      · rw [chargedAt, if_pos ⟨answer, denied⟩] at free
        dsimp only
        rw [if_neg denied, budgetCheck, free]
        exact ⟨rfl, by simp [Verdict.allow]⟩

/-- A charged call is answered by the caps and charged to its session. -/
theorem evaluate_charged {tool : Str} {tokens : Nat}
    (charged : chargedAt set.file (input, config) = some (tool, tokens)) :
    let entry := (set.counters input.sessionId).charge tool tokens
    (evaluate set input config).1 =
        (exceededCap set.file.budgets entry tool tokens).getD .allow ∧
      (evaluate set input config).2 =
        { set with
          counters := Function.update set.counters input.sessionId entry } := by
  intro entry
  obtain ⟨reaches, charge⟩ := Option.ite_none_right_eq_some.mp charged
  refine ⟨evaluate_of_reachesBudget reaches charge, ?_⟩
  obtain ⟨unanswered, permitted⟩ := reaches
  simp only [evaluate, unanswered]
  rw [if_neg permitted]
  simp only [budgetCheck, charge]
  cases exceededCap set.file.budgets
    ((set.counters input.sessionId).charge tool tokens) tool tokens <;> rfl

theorem evaluate_file : (evaluate set input config).2.file = set.file := by
  cases charged : chargedAt set.file (input, config) with
  | none => rw [(evaluate_uncharged charged).1]
  | some charge => rw [(evaluate_charged charged).2]

/-- One call charges its own session and no other. -/
theorem evaluate_counters (session : Option Str) :
    (evaluate set input config).2.counters session =
      (chargesOf set.file session [(input, config)]).foldl
        (fun entry charge => entry.charge charge.1 charge.2)
        (set.counters session) := by
  cases charged : chargedAt set.file (input, config) with
  | none =>
      rw [(evaluate_uncharged charged).1]
      simp [chargesOf, charged]
  | some charge =>
      rw [(evaluate_charged charged).2]
      by_cases own : input.sessionId = session
      · subst own
        simp [chargesOf, charged]
      · simp [chargesOf, own, Function.update_of_ne (Ne.symm own)]

/-- The verdict depends on the counters of the call's own session. -/
theorem evaluate_verdict_congr {other : PolicySet}
    (sameFile : other.file = set.file)
    (sameCounters :
      other.counters input.sessionId = set.counters input.sessionId) :
    (evaluate other input config).1 = (evaluate set input config).1 := by
  unfold evaluate
  rw [sameFile]
  dsimp only
  cases evaluateRules set.file input.tool input config.effectiveThresholds with
  | some verdict => rfl
  | none =>
      dsimp only
      split
      · rfl
      · unfold budgetCheck
        cases chargeFor input with
        | none => rfl
        | some charge =>
            dsimp only
            rw [sameFile, sameCounters]
            cases exceededCap set.file.budgets
              ((set.counters input.sessionId).charge charge.1 charge.2)
              charge.1 charge.2 <;> rfl

end

/-! ## Runs of calls -/

theorem afterCalls_file (set : PolicySet) (calls : List Call) :
    (set.afterCalls calls).file = set.file := by
  induction calls generalizing set with
  | nil => rfl
  | cons call calls induction =>
      exact (induction _).trans evaluate_file

theorem chargesOf_cons (file : PolicyFile) (session : Option Str) (call : Call)
    (calls : List Call) :
    chargesOf file session (call :: calls) =
      chargesOf file session [call] ++ chargesOf file session calls := by
  rw [chargesOf, ← List.singleton_append, List.filterMap_append]
  rfl

/-- The counters of a session are its charges, one after the other. -/
theorem afterCalls_counters (set : PolicySet) (calls : List Call)
    (session : Option Str) :
    (set.afterCalls calls).counters session =
      (chargesOf set.file session calls).foldl
        (fun entry charge => entry.charge charge.1 charge.2)
        (set.counters session) := by
  induction calls generalizing set with
  | nil => rfl
  | cons call calls induction =>
      have later := induction (evaluate set call.1 call.2).2
      rw [evaluate_file, evaluate_counters] at later
      rw [chargesOf_cons, List.foldl_append]
      exact later

/-! ## Exact sums -/

theorem chargeFor_pos {input : HookInput} {tool : Str} {tokens : Nat}
    (charged : chargeFor input = some (tool, tokens)) : 1 ≤ tokens := by
  unfold chargeFor at charged
  split_ifs at charged <;> cases charged <;> exact Nat.le_max_left _ _

theorem chargesOf_pos (file : PolicyFile) (session : Option Str)
    (calls : List Call) : ∀ charge ∈ chargesOf file session calls,
      1 ≤ charge.2 := by
  intro charge member
  obtain ⟨call, -, guarded⟩ := List.mem_filterMap.mp member
  obtain ⟨-, charged⟩ := Option.ite_none_right_eq_some.mp guarded
  obtain ⟨-, charge⟩ := Option.ite_none_right_eq_some.mp charged
  exact chargeFor_pos charge

theorem chargesOf_append (file : PolicyFile) (session : Option Str)
    (past later : List Call) :
    chargesOf file session (past ++ later) =
      chargesOf file session past ++ chargesOf file session later :=
  List.filterMap_append

/-- Below `2^64` neither the saturating nor the wrapping additions show. -/
theorem charge_tally {charges : List (Str × Nat)} {tool : Str} {tokens : Nat}
    (positive : ∀ charge ∈ charges, 1 ≤ charge.2) (one : 1 ≤ tokens)
    (bounded : (charges.map Prod.snd).sum + tokens < 2 ^ 64) :
    (tally charges).charge tool tokens = tally (charges ++ [(tool, tokens)]) := by
  have count : charges.length ≤ (charges.map Prod.snd).sum := by
    have least : ∀ tokens ∈ charges.map Prod.snd, 1 ≤ tokens := by
      intro tokens member
      obtain ⟨charge, inCharges, rfl⟩ := List.mem_map.mp member
      exact positive charge inCharges
    simpa using List.length_le_sum_of_one_le _ least
  have part : ∀ keep : Str × Nat → Bool,
      ((charges.filter keep).map Prod.snd).sum ≤
        (charges.map Prod.snd).sum := fun keep =>
    (List.filter_sublist.map Prod.snd).sum_le_sum (by simp)
  have partCount : ∀ keep : Str × Nat → Bool,
      (charges.filter keep).length ≤ charges.length := fun keep =>
    List.length_filter_le _ _
  simp only [tally, SessionCounters.charge, SessionCounters.mk.injEq]
  refine ⟨?_, ?_, funext fun other => ?_, funext fun other => ?_⟩
  · simp only [saturatingAdd, maxU64, List.map_append, List.sum_append,
      List.map_cons, List.map_nil, List.sum_singleton]
    omega
  · simp only [saturatingAdd, maxU64, List.length_append, List.length_singleton]
    omega
  · have bound := part fun charge => charge.1 = tool
    by_cases same : other = tool
    · subst same
      simp only [Function.update_self, wrappingAdd, List.filter_append,
        List.map_append, List.sum_append, List.filter_singleton, decide_true,
        List.map_cons, List.map_nil, List.sum_singleton, cond_true]
      omega
    · simp [Function.update_of_ne same, Ne.symm same]
  · have bound := partCount fun charge => charge.1 = tool
    by_cases same : other = tool
    · subst same
      simp only [Function.update_self, wrappingAdd, List.filter_append,
        List.length_append, List.filter_singleton, decide_true,
        List.length_singleton, cond_true]
      omega
    · simp [Function.update_of_ne same, Ne.symm same]

/-- The tokens charged to every session fit in 64 bits. -/
def WithinCounters (file : PolicyFile) (calls : List Call) : Prop :=
  ∀ session, ((chargesOf file session calls).map Prod.snd).sum < 2 ^ 64

theorem WithinCounters.front {file : PolicyFile} {past later : List Call}
    (within : WithinCounters file (past ++ later)) :
    WithinCounters file past := by
  intro session
  have bound := within session
  rw [chargesOf_append, List.map_append, List.sum_append] at bound
  omega

theorem foldl_charge_tally {charges : List (Str × Nat)}
    (positive : ∀ charge ∈ charges, 1 ≤ charge.2)
    (bounded : (charges.map Prod.snd).sum < 2 ^ 64) :
    charges.foldl (fun entry charge => entry.charge charge.1 charge.2)
      SessionCounters.default = tally charges := by
  induction charges using List.reverseRecOn with
  | nil => rfl
  | append_singleton charges charge induction =>
      rw [List.map_append, List.sum_append] at bounded
      simp only [List.map_cons, List.map_nil, List.sum_singleton] at bounded
      have earlier : ∀ other ∈ charges, 1 ≤ other.2 := fun other member =>
        positive other (List.mem_append_left _ member)
      rw [List.foldl_append, induction earlier (by omega)]
      exact charge_tally earlier (positive charge (by simp)) bounded

theorem counters_eq_tally {file : PolicyFile} {calls : List Call}
    (within : WithinCounters file calls) (session : Option Str) :
    ((PolicySet.ofFile file).afterCalls calls).counters session =
      tally (chargesOf file session calls) := by
  rw [afterCalls_counters]
  exact foldl_charge_tally (chargesOf_pos file session calls) (within session)

/-! ## Asking -/

theorem chargesOf_concat {file : PolicyFile} {past : List Call} {call : Call}
    {charge : Str × Nat} (charged : chargedAt file call = some charge) :
    chargesOf file call.1.sessionId (past ++ [call]) =
      chargesOf file call.1.sessionId past ++ [charge] := by
  rw [chargesOf_append]
  simp [chargesOf, charged]

/-- A call asks exactly when it is charged and its session's charges then
exceed a cap that applies to its tool. -/
theorem verdictAfter_ask_iff {file : PolicyFile} {past : List Call}
    {call : Call} (within : WithinCounters file (past ++ [call])) :
    (verdictAfter file past call).tier = .ask ↔
      ∃ tool tokens, chargedAt file call = some (tool, tokens) ∧
        CapExceeded file.budgets
          (chargesOf file call.1.sessionId (past ++ [call])) tool := by
  have loaded := afterCalls_file (.ofFile file) past
  cases charged : chargedAt file call with
  | none =>
      have free : chargedAt ((PolicySet.ofFile file).afterCalls past).file
          (call.1, call.2) = none := by rwa [loaded]
      simpa [verdictAfter] using (evaluate_uncharged free).2
  | some charge =>
      obtain ⟨tool, tokens⟩ := charge
      have reaches : chargedAt ((PolicySet.ofFile file).afterCalls past).file
          (call.1, call.2) = some (tool, tokens) := by rwa [loaded]
      have bound := within call.1.sessionId
      rw [chargesOf_concat charged, List.map_append, List.sum_append] at bound
      simp only [List.map_cons, List.map_nil, List.sum_singleton] at bound
      have one : 1 ≤ tokens := chargesOf_pos file call.1.sessionId
        (past ++ [call]) (tool, tokens) (by simp [chargesOf_concat charged])
      rw [verdictAfter, (evaluate_charged reaches).1,
        counters_eq_tally within.front, charge_tally
          (chargesOf_pos file _ past) one bound, ← chargesOf_concat charged]
      have exceeds := @exceededCap_isSome file.budgets
        (tally (chargesOf file call.1.sessionId (past ++ [call]))) tool tokens
      rw [countersExceed_tally] at exceeds
      rw [show (PolicySet.afterCalls (.ofFile file) past).file = file from
        loaded]
      simp only [Option.some.injEq, Prod.mk.injEq, and_assoc]
      cases result : exceededCap file.budgets
          (tally (chargesOf file call.1.sessionId (past ++ [call]))) tool
          tokens with
      | none => simpa [result, Verdict.allow] using exceeds
      | some ask => simpa [result, exceededCap_tier result] using exceeds

/-! ## Sessions -/

/-- The calls of one session. -/
def ofSession (session : Option Str) (calls : List Call) : List Call :=
  calls.filter fun call => call.1.sessionId = session

theorem chargesOf_ofSession (file : PolicyFile) (session : Option Str)
    (calls : List Call) :
    chargesOf file session (ofSession session calls) =
      chargesOf file session calls := by
  induction calls with
  | nil => rfl
  | cons call calls induction =>
      rw [chargesOf_cons]
      by_cases own : call.1.sessionId = session
      · rw [ofSession, List.filter_cons_of_pos (by simpa using own),
          chargesOf_cons]
        exact congrArg _ induction
      · rw [ofSession, List.filter_cons_of_neg (by simpa using own)]
        refine induction.trans ?_
        simp [chargesOf, own]

theorem afterCalls_ofSession (set : PolicySet) (session : Option Str)
    (calls : List Call) :
    (set.afterCalls (ofSession session calls)).counters session =
      (set.afterCalls calls).counters session := by
  rw [afterCalls_counters, afterCalls_counters, chargesOf_ofSession]

/-- A verdict is the one the session would get without the others. -/
theorem verdictAfter_ofSession (file : PolicyFile) (past : List Call)
    (call : Call) :
    verdictAfter file (ofSession call.1.sessionId past) call =
      verdictAfter file past call := by
  apply evaluate_verdict_congr
  · rw [afterCalls_file, afterCalls_file]
  · exact afterCalls_ofSession _ _ _

/-! ## Staying over a cap -/

theorem Exceeds.mono {cap : Option Nat} {used more : Nat} (le : used ≤ more)
    (exceeds : Exceeds cap used) : Exceeds cap more := by
  obtain ⟨limit, isCap, below⟩ := exceeds
  exact ⟨limit, isCap, by omega⟩

/-- The session's own caps. -/
def SessionCapExceeded (budgets : Budgets) (charges : List (Str × Nat)) : Prop :=
  Exceeds budgets.session.maxTokens (charges.map Prod.snd).sum ∨
    Exceeds budgets.session.maxToolInvocations charges.length

theorem SessionCapExceeded.append {budgets : Budgets}
    {charges : List (Str × Nat)} (exceeded : SessionCapExceeded budgets charges)
    (more : List (Str × Nat)) (tool : Str) :
    CapExceeded budgets (charges ++ more) tool := by
  refine (exceeded.imp (Exceeds.mono ?_) (Exceeds.mono ?_)).imp_right .inl
  · rw [List.map_append, List.sum_append]
    exact Nat.le_add_right _ _
  · rw [List.length_append]
    exact Nat.le_add_right _ _

theorem CapExceeded.append {budgets : Budgets} {charges : List (Str × Nat)}
    {tool : Str} (exceeded : CapExceeded budgets charges tool)
    (more : List (Str × Nat)) : CapExceeded budgets (charges ++ more) tool := by
  rcases exceeded with session | session | ⟨budget, found, perTool⟩
  · exact SessionCapExceeded.append (.inl session) more tool
  · exact SessionCapExceeded.append (.inr session) more tool
  · refine .inr (.inr ⟨budget, found,
      perTool.imp (Exceeds.mono ?_) (Exceeds.mono ?_)⟩)
    · rw [List.filter_append, List.map_append, List.sum_append]
      exact Nat.le_add_right _ _
    · rw [List.filter_append, List.length_append]
      exact Nat.le_add_right _ _

/-- Once a session asks for one of its own caps, or for a cap of a tool, it
asks at every later charged call, or at every later charged call of that
tool. -/
theorem verdictAfter_stays_ask {file : PolicyFile} {past between : List Call}
    {first later : Call}
    (within : WithinCounters file (past ++ first :: between ++ [later]))
    (sameSession : later.1.sessionId = first.1.sessionId)
    {firstTool laterTool : Str} {firstTokens laterTokens : Nat}
    (firstCharged : chargedAt file first = some (firstTool, firstTokens))
    (laterCharged : chargedAt file later = some (laterTool, laterTokens))
    (asks : (verdictAfter file past first).tier = .ask)
    (applies : laterTool = firstTool ∨ SessionCapExceeded file.budgets
      (chargesOf file first.1.sessionId (past ++ [first]))) :
    (verdictAfter file (past ++ first :: between) later).tier = .ask := by
  have split : past ++ first :: between ++ [later] =
      (past ++ [first]) ++ (between ++ [later]) := by simp
  have withinFirst : WithinCounters file (past ++ [first]) := by
    rw [split] at within
    exact within.front
  obtain ⟨tool, tokens, charged, exceeded⟩ :=
    (verdictAfter_ask_iff withinFirst).mp asks
  cases firstCharged.symm.trans charged
  rw [verdictAfter_ask_iff within]
  refine ⟨laterTool, laterTokens, laterCharged, ?_⟩
  rw [split, chargesOf_append, sameSession]
  rcases applies with rfl | session
  · exact exceeded.append _
  · exact session.append _ _

/-! ## The accounting law -/

/-- The counters hold the exact sums of the session's charges, a call asks
exactly when they then exceed a cap that applies to it, other sessions change
nothing, and an exceeded cap stays exceeded for the calls it applies to. -/
theorem budget_accounting (file : PolicyFile) (calls : List Call)
    (within : WithinCounters file calls) :
    (∀ past later, calls = past ++ later → ∀ session,
      ((PolicySet.ofFile file).afterCalls past).counters session =
        tally (chargesOf file session past)) ∧
    (∀ past call later, calls = past ++ call :: later →
      ((verdictAfter file past call).tier = .ask ↔
        ∃ tool tokens, chargedAt file call = some (tool, tokens) ∧
          CapExceeded file.budgets
            (chargesOf file call.1.sessionId (past ++ [call])) tool)) ∧
    (∀ past call later, calls = past ++ call :: later →
      verdictAfter file past call =
          verdictAfter file (ofSession call.1.sessionId past) call ∧
        ∀ session,
          ((PolicySet.ofFile file).afterCalls past).counters session =
            ((PolicySet.ofFile file).afterCalls
              (ofSession session past)).counters session) ∧
    (∀ past first between later rest,
      calls = past ++ first :: between ++ later :: rest →
        later.1.sessionId = first.1.sessionId →
          ∀ firstTool firstTokens laterTool laterTokens,
            chargedAt file first = some (firstTool, firstTokens) →
              chargedAt file later = some (laterTool, laterTokens) →
                (verdictAfter file past first).tier = .ask →
                  laterTool = firstTool ∨ SessionCapExceeded file.budgets
                      (chargesOf file first.1.sessionId (past ++ [first])) →
                    (verdictAfter file (past ++ first :: between) later).tier =
                      .ask) := by
  refine ⟨?_, ?_, ?_, ?_⟩
  · intro past later split session
    exact counters_eq_tally (split ▸ within).front session
  · intro past call later split
    rw [← List.singleton_append, ← List.append_assoc] at split
    exact verdictAfter_ask_iff (split ▸ within).front
  · intro past call later _
    exact ⟨(verdictAfter_ofSession file past call).symm,
      fun session => (afterCalls_ofSession _ session past).symm⟩
  · intro past first between later rest split sameSession firstTool firstTokens
      laterTool laterTokens firstCharged laterCharged asks applies
    rw [← @List.singleton_append _ later, ← List.append_assoc] at split
    have earlier : WithinCounters file
        (past ++ first :: between ++ [later]) :=
      WithinCounters.front (split ▸ within)
    exact verdictAfter_stays_ask earlier sameSession firstCharged laterCharged
      asks applies

/-- A policy whose only cap is one Bash invocation a session. -/
def oneBashFile : PolicyFile :=
  { schemaVersion := currentSchemaVersion
    defaultAction := .allow
    tools := []
    budgets :=
      { session := { maxTokens := none, maxToolInvocations := none }
        perTool :=
          [("Bash".toList, { maxTokens := none, maxInvocations := some 1 })] } }

def bashCall : Call :=
  ({ hookEventName := "PreToolUse".toList
     sessionId := none
     toolName := some "Bash".toList
     toolInput := .object [("command".toList, .string "ls".toList)]
     prompt := none
     toolResponse := .null }, .default)

def promptEvent : Str := "UserPromptSubmit".toList

def promptOf (text : Str) : Call :=
  ({ hookEventName := promptEvent
     sessionId := none
     toolName := none
     toolInput := .null
     prompt := some text
     toolResponse := .null }, .default)

def promptCall : Call :=
  promptOf "hello".toList

theorem budget_accounting_oneBash :
    (verdictAfter oneBashFile [bashCall] bashCall).tier = .ask ∧
      (verdictAfter oneBashFile [bashCall, bashCall, promptCall]
        bashCall).tier = .ask := by
  have within : WithinCounters oneBashFile
      ([bashCall] ++ bashCall :: [promptCall] ++ [bashCall]) := by
    intro session
    by_cases absent : session = none
    · subst absent
      decide
    · have uncharged : chargesOf oneBashFile session
          ([bashCall] ++ bashCall :: [promptCall] ++ [bashCall]) = [] := by
        refine List.filterMap_eq_nil_iff.mpr fun call member => if_neg ?_
        have anonymous : call.1.sessionId = none := by
          simp only [List.cons_append, List.nil_append, List.mem_cons,
            List.not_mem_nil, or_false] at member
          rcases member with rfl | rfl | rfl | rfl <;> rfl
        rw [anonymous]
        exact Ne.symm absent
      rw [uncharged]
      decide
  have law := budget_accounting oneBashFile _ within
  have second : (verdictAfter oneBashFile [bashCall] bashCall).tier = .ask :=
    (law.2.1 [bashCall] bashCall [promptCall, bashCall] rfl).mpr
      ⟨"Bash".toList, 1, by decide, .inr (.inr
        ⟨{ maxTokens := none, maxInvocations := some 1 }, by decide,
          .inr ⟨1, rfl, by decide⟩⟩)⟩
  exact ⟨second, law.2.2.2 [bashCall] bashCall [promptCall] bashCall [] rfl rfl
    "Bash".toList 1 "Bash".toList 1 (by decide) (by decide)
    second (.inl rfl)⟩

/-- A session that asks once asks at every later charged call. -/
def AsksForever (file : PolicyFile) : Prop :=
  ∀ past first between later, later.1.sessionId = first.1.sessionId →
    (chargedAt file first).isSome → (chargedAt file later).isSome →
      (verdictAfter file past first).tier = .ask →
        (verdictAfter file (past ++ first :: between) later).tier = .ask

theorem chargedAt_promptOf (text : Str) :
    chargedAt oneBashFile (promptOf text) = some (promptEvent, tokensFor text) := by
  have event : (promptOf text).1.hookEventName = promptEvent := rfl
  have prompt : (promptOf text).1.prompt.getD [] = text := rfl
  have unanswered : evaluateRules oneBashFile (promptOf text).1.tool
      (promptOf text).1 (promptOf text).2.effectiveThresholds = none := by
    rw [evaluateRules_eq_foldl]
    rfl
  have permitted : ¬ (oneBashFile.defaultAction = .deny ∧
      hasExplicitAllow oneBashFile (promptOf text).1.tool = false) :=
    fun denied => absurd denied.1 (by decide)
  have otherEvent : ¬ promptEvent = "PreToolUse".toList := by decide
  have isPrompt : promptEvent = "UserPromptSubmit".toList := rfl
  rw [chargedAt, if_pos ⟨unanswered, permitted⟩, chargeFor, event, prompt,
    if_neg otherEvent, if_pos isPrompt, isPrompt]

/-- A tool's cap says nothing about the other tools, and a session's token
counter stops at the largest number it can hold. -/
theorem toolCap_not_asksForever :
    ¬ AsksForever oneBashFile ∧
      ∃ calls, ((PolicySet.ofFile oneBashFile).afterCalls calls).counters none ≠
        tally (chargesOf oneBashFile none calls) := by
  constructor
  · intro law
    have asked := law [bashCall] bashCall [] promptCall rfl (by decide)
      (by decide) (by decide)
    revert asked
    decide
  · obtain ⟨text, tokens⟩ : ∃ text : Str, tokensFor text = 2 ^ 61 := by
      refine ⟨List.replicate (2 ^ 63 - 1) 'a', ?_⟩
      rw [tokensFor, List.length_replicate]
      decide
    have charges : chargesOf oneBashFile none (List.replicate 8 (promptOf text)) =
        List.replicate 8 (promptEvent, 2 ^ 61) := by
      have charged := chargedAt_promptOf text
      rw [tokens] at charged
      have anonymous : (promptOf text).1.sessionId = none := rfl
      exact List.filterMap_replicate_of_some
        ((if_pos anonymous).trans charged)
    refine ⟨List.replicate 8 (promptOf text), fun same => ?_⟩
    have sums := congrArg SessionCounters.tokens same
    rw [afterCalls_counters, PolicySet.ofFile_file, charges] at sums
    revert sums
    generalize promptEvent = label
    simp [List.replicate, SessionCounters.charge, SessionCounters.default,
      saturatingAdd, maxU64, tally]

end TrustLayer.AgentGuard.Policy
