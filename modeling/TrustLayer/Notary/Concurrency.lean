import TrustLayer.Notary.Service
import Mathlib.Logic.Function.Basic

/-!
# Concurrent notarizations

A call lists, and later saves.  Between the two it holds nothing, and the table
declares no uniqueness of the pair.
-/

namespace TrustLayer.Notary

open TrustLayer.Library

/-- A call that found no certificate.  `tableAt` is a ghost: the size of the
table when the call listed. -/
structure Pending where
  args : NotarizeArgs
  tableAt : Nat

structure State where
  rows : List CertificateRecord
  pending : Nat → Option Pending

def State.start : State :=
  { rows := [], pending := fun _ => none }

/-- The steps of a call at its awaits; `abandon` is an exception between
them. -/
inductive Event where
  | list (call : Nat) (args : NotarizeArgs) (existing : List CertificateRecord)
  | save (call : Nat) (env : Environment)
  | abandon (call : Nat)

def State.finish (state : State) (call : Nat) : State :=
  { state with pending := Function.update state.pending call none }

section

variable [Sha256]

def concurrentStep (service : NotaryServiceProduction) (state : State) :
    Event → Option State
  | .list call args existing =>
      match state.pending call with
      | some _ => none
      | none =>
          match findExisting existing args.contentHash with
          | some _ => some state
          | none => some { state with
              pending := Function.update state.pending call
                (some { args, tableAt := state.rows.length }) }
  | .save call env =>
      match state.pending call with
      | none => none
      | some pending =>
          match saveCertificate state.rows
              (certRecord service pending.args env) with
          | none => some (state.finish call)
          | some rows => some { state.finish call with rows }
  | .abandon call =>
      match state.pending call with
      | none => none
      | some _ => some (state.finish call)

/-- What each event can do. -/
theorem concurrentStep_cases {service : NotaryServiceProduction}
    {before after : State} {event : Event}
    (happens : concurrentStep service before event = some after) :
    (∃ call args existing, event = .list call args existing ∧
      (after = before ∨
        (∀ row ∈ existing, row.contentHash ≠ args.contentHash) ∧
        after = { before with
          pending := Function.update before.pending call
            (some { args, tableAt := before.rows.length }) })) ∨
    (∃ call env pending, event = .save call env ∧
      before.pending call = some pending ∧
      (after = before.finish call ∨
        ∃ cert : CertRecord, cert.toRow.pair = pending.args.pair ∧
          after = { before.finish call with
            rows := before.rows ++ [cert.toRow] })) ∨
    (∃ call, event = .abandon call ∧ after = before.finish call) := by
  cases event with
  | list call args existing =>
      refine .inl ⟨call, args, existing, rfl, ?_⟩
      simp only [concurrentStep] at happens
      split at happens
      · cases happens
      · split at happens
        · exact .inl (Option.some.inj happens).symm
        · rename_i absent
          refine .inr ⟨fun row member same => ?_, (Option.some.inj happens).symm⟩
          exact List.find?_eq_none.mp absent row member (by simpa using same)
  | save call env =>
      simp only [concurrentStep] at happens
      split at happens
      · cases happens
      · rename_i pending waiting
        refine .inr (.inl ⟨call, env, pending, rfl, waiting, ?_⟩)
        split at happens
        · exact .inl (Option.some.inj happens).symm
        · rename_i rows saved
          obtain ⟨-, rfl⟩ := saveCertificate_eq_some_iff.mp saved
          exact .inr ⟨certRecord service pending.args env,
            certRecord_pair service pending.args env,
            (Option.some.inj happens).symm⟩
  | abandon call =>
      simp only [concurrentStep] at happens
      split at happens
      · cases happens
      · exact .inr (.inr ⟨call, rfl, (Option.some.inj happens).symm⟩)

end

/-- The listing shows what the database orders and limits, with the pair's
certificate in the window; a save meets no certificate of its pair that was
saved since its call listed. -/
def Separated (before : State) : Event → State → Prop
  | .list _ args existing, _ =>
      Lists before.rows args.submittedBy 100 existing ∧
        InWindow before.rows args
  | .save call _, _ =>
      ∀ pending ∈ before.pending call,
        ∀ row ∈ before.rows.drop pending.tableAt,
          row.pair ≠ pending.args.pair
  | .abandon _, _ => True

/-- What separated steps keep: behind the ghost, the table holds no certificate
of a pending pair. -/
structure Apart (state : State) : Prop where
  pairs : OnePerPair state.rows
  bound : ∀ call, ∀ pending ∈ state.pending call,
    pending.tableAt ≤ state.rows.length
  absent : ∀ call, ∀ pending ∈ state.pending call,
    ∀ row ∈ state.rows.take pending.tableAt, row.pair ≠ pending.args.pair

theorem Apart.start : Apart .start where
  pairs := List.nodup_nil
  bound := by rintro call pending ⟨⟩
  absent := by rintro call pending ⟨⟩

theorem Apart.finish {state : State} (apart : Apart state) (call : Nat) :
    Apart (state.finish call) where
  pairs := apart.pairs
  bound := by
    intro other pending waiting
    by_cases same : other = call
    · subst same
      simp [State.finish] at waiting
    · exact apart.bound other pending (by simpa [State.finish, same] using waiting)
  absent := by
    intro other pending waiting
    by_cases same : other = call
    · subst same
      simp [State.finish] at waiting
    · exact apart.absent other pending
        (by simpa [State.finish, same] using waiting)

section

variable [Sha256]

theorem separated_step {service : NotaryServiceProduction}
    {before after : State} {event : Event} (apart : Apart before)
    (happens : concurrentStep service before event = some after)
    (separated : Separated before event after) : Apart after := by
  rcases concurrentStep_cases happens with
    ⟨call, args, existing, rfl, rfl | ⟨unlisted, rfl⟩⟩ |
    ⟨call, env, pending, rfl, waiting, rfl | ⟨cert, same, rfl⟩⟩ |
    ⟨call, rfl, rfl⟩
  · exact apart
  · obtain ⟨listed, window⟩ := separated
    have absent : ∀ row ∈ before.rows, row.pair ≠ args.pair := by
      intro row member same
      exact unlisted row (exists_listed listed window member same)
        (pair_eq_iff.mp same).1
    constructor
    · exact apart.pairs
    · intro other pending waiting
      by_cases own : other = call
      · subst own
        obtain rfl : pending = _ := by simpa using waiting.symm
        exact le_rfl
      · exact apart.bound other pending (by simpa [own] using waiting)
    · intro other pending waiting row member
      by_cases own : other = call
      · subst own
        obtain rfl : pending = _ := by simpa using waiting.symm
        exact absent row (List.mem_of_mem_take member)
      · exact apart.absent other pending (by simpa [own] using waiting) row
          member
  · exact apart.finish call
  · have finished := apart.finish call
    have absent : ∀ row ∈ before.rows, row.pair ≠ cert.toRow.pair := by
      intro row member
      rw [same]
      rw [← List.take_append_drop pending.tableAt before.rows] at member
      rcases List.mem_append.mp member with old | new
      · exact apart.absent call pending waiting row old
      · exact separated pending waiting row new
    constructor
    · exact apart.pairs.append absent
    · intro other still waits
      have bound := finished.bound other still waits
      simp only [List.length_append]
      exact bound.trans (Nat.le_add_right _ _)
    · intro other still waits row member
      have bound : still.tableAt ≤ before.rows.length :=
        finished.bound other still waits
      have old : row ∈ (before.rows ++ [cert.toRow]).take still.tableAt := member
      rw [List.take_append_of_le_length bound] at old
      exact finished.absent other still waits row old
  · exact apart.finish call

/-- In every run of separated steps, the table holds one certificate of a
pair. -/
theorem onePerPair_of_separated (service : NotaryServiceProduction)
    {events : List Event} {final : State}
    (separated : EachStep (concurrentStep service) Separated .start events)
    (run : runFrom (concurrentStep service) .start events = some final) :
    OnePerPair final.rows := by
  have apart := EachStep.keeps (fun _ _ _ => separated_step) Apart.start
    separated run
  exact apart.pairs

/-- A call that no other one interrupts does what `notarize` does. -/
theorem uninterrupted (service : NotaryServiceProduction)
    (rows : List CertificateRecord) (call : Nat) (args : NotarizeArgs)
    (existing : List CertificateRecord) (env : Option Environment) :
    ∃ events, runFrom (concurrentStep service)
        { rows, pending := fun _ => none } events =
      some { rows := (notarize service rows args existing env).2
             pending := fun _ => none } := by
  cases search : findExisting existing args.contentHash with
  | some cert =>
      refine ⟨[.list call args existing], ?_⟩
      simp [runFrom, concurrentStep, search, notarize]
  | none =>
      cases env with
      | none =>
          refine ⟨[.list call args existing, .abandon call], ?_⟩
          simp [runFrom, concurrentStep, search, notarize, State.finish]
      | some env =>
          refine ⟨[.list call args existing, .save call env], ?_⟩
          cases saved : saveCertificate rows (certRecord service args env) with
          | none =>
              simp [runFrom, concurrentStep, search, notarize, State.finish,
                saved]
          | some after =>
              simp [runFrom, concurrentStep, search, notarize, State.finish,
                saved]

end

def Event.Ordered (before : State) : Event → Prop
  | .list _ args existing => Lists before.rows args.submittedBy 100 existing
  | .save _ _ | .abandon _ => True

/-- No reachable table holds two certificates of a pair. -/
def AtMostOne [Sha256] (service : NotaryServiceProduction) : Prop :=
  ∀ events final,
    EachStep (concurrentStep service)
      (fun before event _ => event.Ordered before) .start events →
    runFrom (concurrentStep service) .start events = some final →
    OnePerPair final.rows

theorem lists_nil (submittedBy : Str) : Lists [] submittedBy 100 [] :=
  ⟨[], List.Perm.refl _, List.Pairwise.nil, rfl⟩

/-! ## Two calls -/

/-- Both calls list, then the second saves, then the first. -/
def overlapping (first second : NotarizeArgs) : List Event :=
  [.list 0 first [], .list 1 second [], .save 1 (numberedEnv 1),
    .save 0 (numberedEnv 0)]

/-- The calls on their way, both behind their listings. -/
def overlappingPending (first second : NotarizeArgs) : Nat → Option Pending :=
  Function.update
    (Function.update (fun _ => none) 0 (some { args := first, tableAt := 0 }))
    1 (some { args := second, tableAt := 0 })

section

variable [Sha256]

def secondCert (second : NotarizeArgs) : CertRecord :=
  certRecord devService second (numberedEnv 1)

def firstCert (first : NotarizeArgs) : CertRecord :=
  certRecord devService first (numberedEnv 0)

def listedTwice (first second : NotarizeArgs) : State :=
  { rows := [], pending := overlappingPending first second }

def savedOnce (first second : NotarizeArgs) : State :=
  { rows := [(secondCert second).toRow]
    pending := Function.update (overlappingPending first second) 1 none }

def savedBoth (first second : NotarizeArgs) : State :=
  { rows := [(secondCert second).toRow, (firstCert first).toRow]
    pending := Function.update
      (Function.update (overlappingPending first second) 1 none) 0 none }

theorem savedOnce_save (first second : NotarizeArgs) :
    concurrentStep devService (savedOnce first second)
      (.save 0 (numberedEnv 0)) = some (savedBoth first second) := by
  have fresh : ∀ row ∈ [(secondCert second).toRow],
      row.certId ≠ (firstCert first).certId := by
    intro row member same
    rw [List.mem_singleton.mp member] at same
    exact absurd (certRecord_certId_inj (by decide) (by decide) same)
      (by decide)
  have saved := saveCertificate_eq_some_iff.mpr ⟨fresh, rfl⟩
  have waiting : (savedOnce first second).pending 0 =
      some { args := first, tableAt := 0 } := rfl
  simp only [concurrentStep, waiting]
  rw [show saveCertificate (savedOnce first second).rows
    (certRecord devService first (numberedEnv 0)) = _ from saved]
  rfl

theorem overlapping_run (first second : NotarizeArgs) :
    runFrom (concurrentStep devService) .start (overlapping first second) =
      some (savedBoth first second) := by
  change runFrom (concurrentStep devService) (savedOnce first second)
    [.save 0 (numberedEnv 0)] = _
  rw [runFrom, savedOnce_save]
  rfl

/-- A law that holds where the two calls list and save holds of their run. -/
theorem overlapping_each {law : State → Event → State → Prop}
    {first second : NotarizeArgs}
    (lists : ∀ before after call args, before.rows = [] →
      law before (.list call args []) after)
    (saves : ∀ after, law (listedTwice first second)
      (.save 1 (numberedEnv 1)) after)
    (savesAgain : ∀ after, law (savedOnce first second)
      (.save 0 (numberedEnv 0)) after) :
    EachStep (concurrentStep devService) law .start
      (overlapping first second) :=
  .cons rfl (lists _ _ _ _ rfl) <|
    .cons rfl (lists _ (listedTwice first second) _ _ rfl) <|
      .cons rfl (saves (savedOnce first second)) <|
        .cons (savedOnce_save first second) (savesAgain _) trivial

end

/-- The digest in an id plays no part in the run. -/
@[reducible] def zeroSha256 : Sha256 where
  hash := fun _ => Vector.replicate 32 0

/-- Calls of two contents, one between the steps of the other. -/
theorem twoContents_onePerPair :
    OnePerPair (@savedBoth zeroSha256 (numberedArgs 0) (numberedArgs 1)).rows := by
  let _ := zeroSha256
  have separated : EachStep (concurrentStep devService) Separated .start
      (overlapping (numberedArgs 0) (numberedArgs 1)) := by
    refine overlapping_each ?_ ?_ ?_
    · intro before after call args empty
      simp [Separated, InWindow, empty, lists_nil]
    · intro after pending waiting row member
      simp [listedTwice] at member
    · intro after pending waiting row member same
      obtain rfl : ({ args := numberedArgs 0, tableAt := 0 } : Pending) =
        pending := Option.some.inj waiting
      obtain rfl : row = (secondCert (numberedArgs 1)).toRow :=
        List.mem_singleton.mp member
      exact absurd (numberedArgs_pair_inj same) (by decide)
  exact onePerPair_of_separated devService separated
    (overlapping_run (numberedArgs 0) (numberedArgs 1))

/-- Two calls of one content that both list before either saves. -/
theorem oneContent_certifiedTwice :
    ¬ ∃ sha : Sha256, @AtMostOne sha devService := by
  rintro ⟨sha, atMostOne⟩
  have ordered : EachStep (concurrentStep devService)
      (fun before event _ => event.Ordered before) .start
      (overlapping (numberedArgs 0) (numberedArgs 0)) := by
    refine overlapping_each ?_ (fun _ => trivial) fun _ => trivial
    intro before after call args empty
    simp [Event.Ordered, empty, lists_nil]
  have pairs := atMostOne _ _ ordered
    (overlapping_run (numberedArgs 0) (numberedArgs 0))
  simp [OnePerPair, savedBoth, secondCert, firstCert, certRecord_pair] at pairs

end TrustLayer.Notary
