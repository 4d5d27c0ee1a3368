import TrustLayer.AgentGuard.Gate.Argument

/-!
# Many substitutions in one argument

A quoted argument that is a run of command substitutions stays one leg, and
each of its bodies is scanned up to the cap.
-/

namespace TrustLayer.AgentGuard.Gate

open TrustLayer.Library

/-- A body that keeps the quotes, parentheses and escapes around it intact. -/
structure LiveBody (body : Str) : Prop where
  ascii : IsAscii body
  balanced : parenDepth 1 body = some 1
  unbroken : NoContinuation body
  argument : Argument body

theorem SimpleCommand.liveBody {command : Str} (simple : SimpleCommand command) :
    LiveBody command where
  ascii := simple.ascii
  balanced := simple.parenDepth_eq 1
  unbroken := noContinuation_of_not_mem (simple.not_mem (by simp))
  argument := simple.argument

/-- A run of substitutions stays unbroken: each one ends with a parenthesis. -/
theorem noContinuation_substitutions {bodies : List Str}
    (live : ∀ body ∈ bodies, LiveBody body) :
    NoContinuation (bodies.flatMap substitution) := by
  induction bodies with
  | nil => exact .nil
  | cons body bodies induction =>
      obtain ⟨head, tail⟩ := List.forall_mem_cons.mp live
      have shape : (body :: bodies).flatMap substitution =
          ['$', '('] ++ (body ++ ([')'] ++ bodies.flatMap substitution)) := by
        simp [substitution]
      rw [shape]
      refine List.isChain_append.mpr ⟨by decide,
        List.isChain_append.mpr ⟨head.unbroken,
          List.isChain_append.mpr ⟨by decide, induction tail, ?_⟩, ?_⟩, ?_⟩
      · intro last lastEq next _ escape
        obtain rfl := Option.some.inj lastEq
        exact absurd escape (by decide)
      · rintro last - next nextEq -
        obtain rfl := Option.some.inj nextEq
        decide
      · intro last lastEq next _ escape
        obtain rfl := Option.some.inj lastEq
        exact absurd escape (by decide)

/-- `echo "$(body)..."`, with one substitution for every body. -/
def echoAll (bodies : List Str) : Str :=
  quote "echo".toList (bodies.flatMap substitution)

/-- While the cap leaves room for it, an executing command that the taxonomy
rates for Block blocks the argument it is substituted into. -/
theorem evaluate_echoAll_block [Base64Engine] (bodies : List Str) (command : Str)
    (live : ∀ body ∈ bodies, LiveBody body)
    (few : bodies.length < maxSubstBodies)
    (simple : SimpleCommand command) (rated : RatedBlock command)
    (executes : isNonExecutingVerb command = false) :
    (evaluate (echoAll (bodies ++ [command])) .default).tier = .block := by
  have allLive : ∀ body ∈ bodies ++ [command], LiveBody body := by
    intro body member
    rcases List.mem_append.mp member with earlier | last
    · exact live body earlier
    · exact List.mem_singleton.mp last ▸ simple.liveBody
  have fits : (bodies ++ [command]).length ≤ maxSubstBodies := by
    rw [List.length_append]
    exact few
  have ascii : IsAscii ((bodies ++ [command]).flatMap substitution) := by
    intro char member
    obtain ⟨body, among, within⟩ := List.mem_flatMap.mp member
    have bodyAscii : IsAscii (substitution body) := by
      simp [substitution, (allLive body among).ascii]
    exact bodyAscii char within
  have argument : Argument ((bodies ++ [command]).flatMap substitution) :=
    .flatMap fun body among => (allLive body among).argument.substitution
  have bytes := asBytes_of_ascii ascii
  obtain ⟨hit, bodyHit, severe⟩ := BodyHit.of_ratedBlock simple rated executes 1
  have legHit : LegHit .default (echoAll (bodies ++ [command])) 0 hit := by
    refine .live (by decide) ?_ bodyHit
    rw [echoAll, printingHead_echo.liveSubstitutionBodies_quote
      (fun body among => (allLive body among).ascii)
      (fun body among => (allLive body among).balanced) fits]
    simp
  have split : splitCompound
      (scanInput (echoAll (bodies ++ [command])) .default).command =
        [] ++ echoAll (bodies ++ [command]) :: [] := by
    rw [echoAll, printingHead_echo.scanInput_quote ascii
        (noContinuation_substitutions allLive) argument,
      printingHead_echo.splitCompound_quote (bytes.symm ▸ argument), bytes]
    rfl
  refine evaluate_block_of_leg split (by simp) ⟨hit, ?_, severe⟩
  rw [echoAll, printingHead_echo.asBytes_quote, bytes]
  exact legHit

/-- A body of plain characters. -/
theorem LiveBody.of_bare {body : Str} (ascii : IsAscii body)
    (balanced : parenDepth 1 body = some 1) (unbroken : NoContinuation body)
    (quotable : isQuotedText body = true) : LiveBody body where
  ascii := ascii
  balanced := balanced
  unbroken := unbroken
  argument := .bare quotable

theorem evaluate_echoAll_block_rm :
    (@evaluate .standard
      (echoAll (["ls -la; id".toList, "date | cat".toList] ++
        ["rm -rf ~".toList])) .default).tier = .block :=
  @evaluate_echoAll_block .standard
    ["ls -la; id".toList, "date | cat".toList] "rm -rf ~".toList
    (by
      intro body member
      simp only [List.mem_cons, List.not_mem_nil, or_false] at member
      rcases member with rfl | rfl
      · exact .of_bare (by decide) (by decide +kernel) (by decide)
          (by decide +kernel)
      · exact .of_bare (by decide) (by decide +kernel) (by decide)
          (by decide +kernel))
    (by decide)
    (.of_words (by decide) (by decide) (by decide) (by decide))
    (by decide +kernel) (by decide)

/-- The first bodies use up the cap, and a command that only prints is not
rated in a body. -/
theorem echoAll_hides_last :
    (SimpleCommand "rm -rf ~".toList ∧ RatedBlock "rm -rf ~".toList ∧
      (@evaluate .standard
        (echoAll (List.replicate 64 "ls".toList ++ ["rm -rf ~".toList]))
        .default).tier = .allow) ∧
    (SimpleCommand "echo rm -rf ~".toList ∧ RatedBlock "echo rm -rf ~".toList ∧
      (@evaluate .standard (echoAll ([] ++ ["echo rm -rf ~".toList]))
        .default).tier = .allow) := by
  refine ⟨⟨?_, by decide +kernel, by decide +kernel⟩,
    ⟨?_, by decide +kernel, by decide +kernel⟩⟩
  · exact .of_words (by decide) (by decide) (by decide) (by decide)
  · exact .of_words (by decide) (by decide) (by decide) (by decide)

end TrustLayer.AgentGuard.Gate
