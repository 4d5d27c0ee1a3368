import TrustLayer.ThemisAgents.Llm

/-!
# The hosted backends

A gateway may limit the rate of the calls.  A backend then sends its request
again after a pause, and it reports how a call has ended.
-/

namespace TrustLayer.ThemisAgents.Complete

open TrustLayer.Library hiding Json
open TrustLayer.AgentGuard (Json)
open TrustLayer.SerdeJson (Parser fromStr integer)

/-! ## Backends -/

/-- Where the two backends differ. -/
structure Provider where
  /-- In the texts of errors. -/
  name : Str
  baseUrl : Str
  /-- Whether refused credentials are an error of their own, and of whom. -/
  authentication : Option Str

structure HostedBackend where
  provider : Provider
  apiKey : Str
  model : Str
  baseUrl : Str
  /-- Whether a sink is attached. -/
  metrics : Bool

def HostedBackend.new (provider : Provider) (apiKey model : Str) :
    HostedBackend where
  provider := provider
  apiKey := apiKey
  model := model
  baseUrl := provider.baseUrl
  metrics := false

def FeatherlessBackend.provider : Provider where
  name := "Featherless".toList
  baseUrl := "https://api.featherless.ai".toList
  authentication := none

def AIMLAPIBackend.provider : Provider where
  name := "AIMLAPI".toList
  baseUrl := "https://api.aimlapi.com".toList
  authentication := some "aimlapi".toList

/-- The schedule of the pauses. -/
def backoffsMs : List Nat :=
  [100, 200, 400]

/-! ## What is sent, and what comes back -/

structure Post where
  url : Str
  authorization : Str
  contentType : Str
  body : Json

def message (role : String) (content : Str) : Json :=
  .object [("role".toList, .string role.toList),
    ("content".toList, .string content)]

def responseFormat (name : Str) (schema : Json) : Json :=
  .object [("type".toList, .string "json_schema".toList),
    ("json_schema".toList, .object [("name".toList, .string name),
      ("schema".toList, schema)])]

def requestBody [FloatTexts] (model : Str) (req : LlmRequest) : Json :=
  let base := [("model".toList, .string model),
    ("messages".toList, .array [message "system" req.systemPrompt,
      message "user" req.userPrompt]),
    ("max_tokens".toList, integer req.maxTokens.toNat),
    ("temperature".toList, FloatTexts.ofF32 req.temperature)]
  match req.responseSchema with
  | none => .object base
  | some schema =>
      let name := req.responseSchemaName.getD "ThemisResponse".toList
      .object (base ++ [("response_format".toList, responseFormat name schema)])

def HostedBackend.post [FloatTexts] (backend : HostedBackend)
    (req : LlmRequest) : Post where
  url := backend.baseUrl ++ "/v1/chat/completions".toList
  authorization := "Bearer ".toList ++ backend.apiKey
  contentType := "application/json".toList
  body := requestBody backend.model req

structure Response where
  status : Nat
  /-- The body, or why it cannot be read. -/
  text : Except Str Str

/-- What `send` gives. -/
abbrev Sent := Except Str Response

/-- `Display` of a status code. -/
class StatusTexts where
  display : Nat → Str

structure CallMetrics where
  success : Bool
  latencyMs : UInt64
  tokensIn : UInt32
  tokensOut : UInt32
  model : Str
  deriving DecidableEq

/-- What a call does, one after the other. -/
inductive Event where
  | slept (ms : Nat)
  | posted (post : Post)
  | recorded (outcome : CallMetrics)

/-! ## One answer -/

/-- `value[key]`; of fields with one name the parser keeps the last. -/
def field (key : String) : Json → Json
  | .object fields => (fields.reverse.lookup key.toList).getD .null
  | _ => .null

/-- `value[0]`. -/
def firstItem : Json → Json
  | .array (item :: _) => item
  | _ => .null

def tokens (key : String) (parsed : Json) : UInt32 :=
  ((asU64 (field key (field "usage" parsed))).getD 0).toUInt32

/-- `choices[0]`. -/
def choice (parsed : Json) : Json :=
  firstItem (field "choices" parsed)

def response (model text : Str) (parsed : Json) : LlmResponse where
  text := text
  inputTokens := tokens "prompt_tokens" parsed
  outputTokens := tokens "completion_tokens" parsed
  modelId := model
  finishReason := parseFinishReason (field "finish_reason" (choice parsed)).asStr

/-- The envelope of a success. -/
def readEnvelope [Parser] (provider : Provider) (model raw : Str) :
    Except AgentError LlmResponse :=
  match fromStr "Value".toList some raw with
  | .error e =>
      .error (.llmMalformedPayload (provider.name ++
        " returned non-JSON: ".toList ++ e ++ ": ".toList ++ raw.take 200))
  | .ok parsed =>
      match (field "content" (field "message" (choice parsed))).asStr with
      | none =>
          .error (.llmMalformedPayload
            "missing choices[0].message.content".toList)
      | some text => .ok (response model text parsed)

/-- Why credentials were refused, as far as the body tells. -/
def refusal [Parser] (body : Str) : Str :=
  ((Parser.tree body).bind fun parsed =>
    (field "message" (field "error" parsed)).asStr).getD (body.take 200)

def failed (backend : HostedBackend) (latencyMs : UInt64) : CallMetrics where
  success := false
  latencyMs := latencyMs
  tokensIn := 0
  tokensOut := 0
  model := backend.model

def succeeded (backend : HostedBackend) (latencyMs : UInt64)
    (answer : LlmResponse) : CallMetrics where
  success := true
  latencyMs := latencyMs
  tokensIn := answer.inputTokens
  tokensOut := answer.outputTokens
  model := backend.model

/-- `record_call`, if there is a sink. -/
def record (backend : HostedBackend) (outcome : CallMetrics) : List Event :=
  if backend.metrics then [.recorded outcome] else []

section

variable [Parser] [StatusTexts]

/-- An answer that is not about the rate of the calls ends the call.  The `?`s
on a success leave before the sink is called. -/
def settle (backend : HostedBackend) (latencyMs : UInt64) :
    Sent → List Event × Except AgentError LlmResponse
  | .error e =>
      (record backend (failed backend latencyMs),
        .error (.llmUnavailable
          (backend.provider.name ++ " network error: ".toList ++ e)))
  | .ok resp =>
      let body := resp.text.toOption.getD []
      let refused := (backend.provider.authentication).filter fun _ =>
        resp.status = 401 ∨ resp.status = 403
      if 500 ≤ resp.status ∧ resp.status < 600 then
        (record backend (failed backend latencyMs),
          .error (.llmUnavailable (backend.provider.name ++ " 5xx: ".toList ++
            StatusTexts.display resp.status)))
      else
        match refused with
        | some provider =>
            (record backend (failed backend latencyMs),
              .error (.authenticationError provider (refusal body)))
        | none =>
            if ¬ (200 ≤ resp.status ∧ resp.status < 300) then
              (record backend (failed backend latencyMs),
                .error (.llmUnavailable (backend.provider.name ++
                  " ".toList ++ StatusTexts.display resp.status ++
                  ": ".toList ++ body.take 200)))
            else
              match resp.text with
              | .error e =>
                  ([], .error (.llmUnavailable ("read body: ".toList ++ e)))
              | .ok raw =>
                  match readEnvelope backend.provider backend.model raw with
                  | .error e => ([], .error e)
                  | .ok answer =>
                      (record backend (succeeded backend latencyMs answer),
                        .ok answer)

/-! ## A call -/

/-- `TOO_MANY_REQUESTS`. -/
def Limited : Sent → Prop
  | .ok resp => resp.status = 429
  | .error _ => False

instance limitedDecidable : DecidablePred Limited
  | .ok resp => inferInstanceAs (Decidable (resp.status = 429))
  | .error _ => inferInstanceAs (Decidable False)

/-- The loop over the attempts.  The network is asked by the attempt, and the
clock tells how long the call has taken. -/
def tryAll (backend : HostedBackend) (post : Post) (network : Nat → Sent)
    (clock : Nat → UInt64) (lastErr : Option AgentError) :
    (attempts : List Nat) → List Event × Except AgentError LlmResponse
  | [] =>
      (record backend (failed backend (clock (backoffsMs.length + 1))),
        .error (lastErr.getD (.llmUnavailable (backend.provider.name ++
          ": rate-limited after retries".toList))))
  | attempt :: attempts =>
      let before := if 0 < attempt then
          [.slept ((backoffsMs[attempt - 1]?).getD 0), .posted post]
        else [.posted post]
      let (events, result) :=
        if Limited (network attempt) then
          tryAll backend post network clock (some (.rateLimited 0)) attempts
        else settle backend (clock attempt) (network attempt)
      (before ++ events, result)

/-- `complete`. -/
def complete [FloatTexts] (backend : HostedBackend) (req : LlmRequest)
    (network : Nat → Sent) (clock : Nat → UInt64) :
    List Event × Except AgentError LlmResponse :=
  tryAll backend (backend.post req) network clock none
    (List.range (backoffsMs.length + 1))

end

/-! ## Which answer decides -/

/-- What an attempt does before it has an answer. -/
def ask (post : Post) (attempt : Nat) : List Event :=
  if 0 < attempt then
    [.slept ((backoffsMs[attempt - 1]?).getD 0), .posted post]
  else [.posted post]

/-- The request, and once more behind each of the first pauses. -/
def script (post : Post) (pauses : Nat) : List Event :=
  .posted post :: (backoffsMs.take pauses).flatMap fun ms =>
    [.slept ms, .posted post]

theorem script_succ (post : Post) {pauses : Nat}
    (few : pauses < backoffsMs.length) :
    script post (pauses + 1) = script post pauses ++ ask post (pauses + 1) := by
  rw [ask, if_pos (Nat.succ_pos _), Nat.add_sub_cancel,
    List.getElem?_eq_getElem few, Option.getD_some, script, script,
    List.take_succ_eq_append_getElem few, List.flatMap_append]
  rfl

theorem flatMap_ask (post : Post) {pauses : Nat}
    (few : pauses ≤ backoffsMs.length) :
    (List.range (pauses + 1)).flatMap (ask post) = script post pauses := by
  induction pauses with
  | zero => rfl
  | succ pauses induction =>
      rw [List.range_succ, List.flatMap_append, induction (Nat.le_of_lt few),
        List.flatMap_singleton, script_succ post few]

/-- The answer to this attempt decides. -/
def Decides (network : Nat → Sent) (attempt : Nat) : Prop :=
  attempt ≤ backoffsMs.length ∧ (∀ earlier < attempt, Limited (network earlier)) ∧
    ¬ Limited (network attempt)

theorem decides_or_limited (network : Nat → Sent) :
    (∃ attempt, Decides network attempt) ∨
      ∀ attempt ≤ backoffsMs.length, Limited (network attempt) := by
  by_cases settled : ∃ attempt, attempt ≤ backoffsMs.length ∧
      ¬ Limited (network attempt)
  · left
    obtain ⟨few, first⟩ := Nat.find_spec settled
    refine ⟨Nat.find settled, few, ?_, first⟩
    intro earlier before
    by_contra other
    exact Nat.find_min settled before ⟨(Nat.le_of_lt before).trans few, other⟩
  · right
    intro attempt few
    by_contra other
    exact settled ⟨attempt, few, other⟩

section

variable [Parser] [StatusTexts]

variable {backend : HostedBackend} {post : Post} {network : Nat → Sent}
  {clock : Nat → UInt64}

theorem tryAll_of_limited (lastErr : Option AgentError) {attempts : List Nat}
    {attempt : Nat} (limited : Limited (network attempt)) :
    tryAll backend post network clock lastErr (attempt :: attempts) =
      (ask post attempt ++ (tryAll backend post network clock
          (some (.rateLimited 0)) attempts).1,
        (tryAll backend post network clock (some (.rateLimited 0))
          attempts).2) := by
  rw [tryAll, if_pos limited]
  rfl

theorem tryAll_of_settled (lastErr : Option AgentError) {attempts : List Nat}
    {attempt : Nat} (settled : ¬ Limited (network attempt)) :
    tryAll backend post network clock lastErr (attempt :: attempts) =
      (ask post attempt ++ (settle backend (clock attempt) (network attempt)).1,
        (settle backend (clock attempt) (network attempt)).2) := by
  rw [tryAll, if_neg settled]
  rfl

/-- The first answer that is not about the rate decides. -/
theorem tryAll_append (lastErr : Option AgentError) {front back : List Nat}
    {attempt : Nat} (limited : ∀ earlier ∈ front, Limited (network earlier))
    (settled : ¬ Limited (network attempt)) :
    tryAll backend post network clock lastErr (front ++ attempt :: back) =
      ((front ++ [attempt]).flatMap (ask post) ++
          (settle backend (clock attempt) (network attempt)).1,
        (settle backend (clock attempt) (network attempt)).2) := by
  induction front generalizing lastErr with
  | nil =>
      rw [List.nil_append, tryAll_of_settled lastErr settled]
      simp
  | cons first front induction =>
      obtain ⟨here, later⟩ := List.forall_mem_cons.mp limited
      rw [List.cons_append, tryAll_of_limited lastErr here, induction _ later]
      simp

/-- No answer decides. -/
theorem tryAll_of_all (lastErr : Option AgentError) {attempts : List Nat}
    (limited : ∀ attempt ∈ attempts, Limited (network attempt))
    (some_ : attempts ≠ []) :
    tryAll backend post network clock lastErr attempts =
      (attempts.flatMap (ask post) ++ record backend
          (failed backend (clock (backoffsMs.length + 1))),
        .error (.rateLimited 0)) := by
  induction attempts generalizing lastErr with
  | nil => exact absurd rfl some_
  | cons attempt attempts induction =>
      obtain ⟨here, later⟩ := List.forall_mem_cons.mp limited
      rw [tryAll_of_limited lastErr here]
      cases attempts with
      | nil => simp [tryAll]
      | cons second attempts =>
          rw [induction _ later (List.cons_ne_nil _ _)]
          simp

variable [FloatTexts]

theorem complete_of_decides (req : LlmRequest) {attempt : Nat}
    (decides : Decides network attempt) :
    complete backend req network clock =
      (script (backend.post req) attempt ++
          (settle backend (clock attempt) (network attempt)).1,
        (settle backend (clock attempt) (network attempt)).2) := by
  obtain ⟨few, limited, settled⟩ := decides
  obtain ⟨back, split⟩ : ∃ back, List.range (backoffsMs.length + 1) =
      List.range attempt ++ attempt :: back := by
    have size : backoffsMs.length + 1 =
        attempt + (backoffsMs.length - attempt + 1) := by
      omega
    rw [size, List.range_add, List.range_succ_eq_map, List.map_cons]
    exact ⟨_, rfl⟩
  rw [complete, split, tryAll_append none _ settled, ← List.range_succ,
    flatMap_ask _ few]
  intro earlier member
  exact limited earlier (List.mem_range.mp member)

theorem complete_of_limited (req : LlmRequest)
    (limited : ∀ attempt ≤ backoffsMs.length, Limited (network attempt)) :
    complete backend req network clock =
      (script (backend.post req) backoffsMs.length ++ record backend
          (failed backend (clock (backoffsMs.length + 1))),
        .error (.rateLimited 0)) := by
  rw [complete, tryAll_of_all none _ (by decide), flatMap_ask _ (Nat.le_refl _)]
  intro attempt member
  exact limited attempt (Nat.le_of_lt_succ (List.mem_range.mp member))

end

/-! ## How a call ends -/

theorem asStr_eq_some_iff {value : Json} {text : Str} :
    value.asStr = some text ↔ value = .string text := by
  cases value <;> simp [Json.asStr]

/-- A success that can be read, and what it says. -/
def Gives [Parser] (backend : HostedBackend) (sent : Sent)
    (answer : LlmResponse) : Prop :=
  ∃ resp raw parsed text, sent = .ok resp ∧
    (200 ≤ resp.status ∧ resp.status < 300) ∧ resp.text = .ok raw ∧
    Parser.tree raw = some parsed ∧
    field "content" (field "message" (choice parsed)) = .string text ∧
    answer = response backend.model text parsed

def Success (sent : Sent) : Prop :=
  ∃ resp, sent = .ok resp ∧ 200 ≤ resp.status ∧ resp.status < 300

theorem limited_not_success {sent : Sent} (limited : Limited sent) :
    ¬ Success sent := by
  rintro ⟨resp, rfl, fine⟩
  have status : resp.status = 429 := limited
  omega

section

variable [Parser]

/-- A success that cannot be read. -/
def Lost (backend : HostedBackend) (sent : Sent) : Prop :=
  Success sent ∧ ∀ answer, ¬ Gives backend sent answer

/-- The ends of a call. -/
inductive Settled (backend : HostedBackend) (latencyMs : UInt64) (sent : Sent) :
    List Event × Except AgentError LlmResponse → Prop where
  | failed (e : AgentError) : ¬ Success sent →
      Settled backend latencyMs sent
        (record backend (failed backend latencyMs), .error e)
  | lost (e : AgentError) : Lost backend sent →
      Settled backend latencyMs sent ([], .error e)
  | given (answer : LlmResponse) : Gives backend sent answer →
      Settled backend latencyMs sent
        (record backend (succeeded backend latencyMs answer), .ok answer)

theorem Gives.unique {backend : HostedBackend} {sent : Sent}
    {answer other : LlmResponse} (left : Gives backend sent answer)
    (right : Gives backend sent other) : answer = other := by
  obtain ⟨resp, raw, parsed, text, rfl, -, read, tree, content, rfl⟩ := left
  obtain ⟨_, _, _, _, again, -, readAgain, treeAgain, contentAgain, rfl⟩ := right
  obtain rfl := Except.ok.inj again
  obtain rfl := Except.ok.inj (read.symm.trans readAgain)
  obtain rfl := Option.some.inj (tree.symm.trans treeAgain)
  rw [Json.string.inj (content.symm.trans contentAgain)]

theorem readEnvelope_eq_ok_iff {backend : HostedBackend} {raw : Str}
    {answer : LlmResponse} :
    readEnvelope backend.provider backend.model raw = .ok answer ↔
      ∃ parsed text, Parser.tree raw = some parsed ∧
        field "content" (field "message" (choice parsed)) = .string text ∧
        answer = response backend.model text parsed := by
  rw [readEnvelope]
  constructor
  · intro read
    split at read
    · cases read
    · next parsed tree =>
        rw [SerdeJson.fromStr_eq_ok_iff, Option.bind_fun_some] at tree
        split at read
        · cases read
        · next text content =>
            cases read
            exact ⟨parsed, text, tree, asStr_eq_some_iff.mp content, rfl⟩
  · rintro ⟨parsed, text, tree, content, rfl⟩
    have read : fromStr "Value".toList some raw = .ok parsed := by
      rw [SerdeJson.fromStr_eq_ok_iff, tree]
      rfl
    rw [read]
    dsimp only
    rw [content]
    rfl

theorem settle_settled [StatusTexts] (backend : HostedBackend)
    (latencyMs : UInt64) (sent : Sent) :
    Settled backend latencyMs sent (settle backend latencyMs sent) := by
  cases sent with
  | error e =>
      apply Settled.failed
      rintro ⟨resp, ⟨⟩, -⟩
  | ok resp =>
      have success : Success (.ok resp) ↔
          200 ≤ resp.status ∧ resp.status < 300 := by
        constructor
        · rintro ⟨other, same, inside⟩
          rwa [Except.ok.inj same]
        · intro inside
          exact ⟨resp, rfl, inside⟩
      rw [settle]
      by_cases server : 500 ≤ resp.status ∧ resp.status < 600
      · rw [if_pos server]
        apply Settled.failed
        rw [success]
        omega
      · rw [if_neg server]
        cases refused : backend.provider.authentication.filter fun _ =>
            resp.status = 401 ∨ resp.status = 403 with
        | some provider =>
            apply Settled.failed
            have status := Option.filter_eq_some_iff.mp refused
            rw [success]
            simp only [decide_eq_true_eq] at status
            omega
        | none =>
            dsimp only
            by_cases fine : 200 ≤ resp.status ∧ resp.status < 300
            · rw [if_neg (not_not.mpr fine)]
              have inside := success.mpr fine
              cases body : resp.text with
              | error e =>
                  apply Settled.lost _ ⟨inside, ?_⟩
                  rintro answer ⟨_, raw, _, _, ⟨⟩, -, read, -⟩
                  rw [body] at read
                  cases read
              | ok raw =>
                  dsimp only
                  cases read : readEnvelope backend.provider backend.model
                      raw with
                  | error e =>
                      apply Settled.lost _ ⟨inside, ?_⟩
                      rintro answer ⟨_, _, parsed, text, ⟨⟩, -, readAgain, rest⟩
                      rw [body] at readAgain
                      cases readAgain
                      rw [readEnvelope_eq_ok_iff.mpr ⟨parsed, text, rest⟩] at read
                      cases read
                  | ok answer =>
                      obtain ⟨parsed, text, tree, content, rfl⟩ :=
                        readEnvelope_eq_ok_iff.mp read
                      apply Settled.given
                      exact ⟨resp, raw, parsed, text, rfl, fine, body, tree,
                        content, rfl⟩
            · rw [if_pos fine]
              exact Settled.failed _ (success.not.mpr fine)

end

/-! ## What a call does on the way -/

def Event.outcome : Event → Option CallMetrics
  | .recorded outcome => some outcome
  | .slept _ | .posted _ => none

/-- What the sink is told. -/
def reports (events : List Event) : List CallMetrics :=
  events.filterMap Event.outcome

/-- What the gateway is asked, and when. -/
def requests (events : List Event) : List Event :=
  events.filter fun event => event.outcome.isNone

theorem outcome_of_mem_script {post : Post} {pauses : Nat} {event : Event}
    (member : event ∈ script post pauses) : event.outcome = none := by
  rcases List.mem_cons.mp member with rfl | later
  · rfl
  · obtain ⟨ms, -, inside⟩ := List.mem_flatMap.mp later
    rcases List.mem_cons.mp inside with rfl | last
    · rfl
    · rw [List.mem_singleton.mp last]
      rfl

theorem requests_script_append (post : Post) (pauses : Nat)
    (events : List Event) :
    requests (script post pauses ++ events) =
      script post pauses ++ requests events := by
  rw [requests, List.filter_append, List.filter_eq_self.mpr]
  · rfl
  · intro event member
    rw [outcome_of_mem_script member]
    rfl

theorem reports_script_append (post : Post) (pauses : Nat)
    (events : List Event) :
    reports (script post pauses ++ events) = reports events := by
  rw [reports, List.filterMap_append, List.filterMap_eq_nil_iff.mpr]
  · rfl
  · intro event member
    exact outcome_of_mem_script member

theorem requests_record (backend : HostedBackend) (outcome : CallMetrics) :
    requests (record backend outcome) = [] := by
  rw [record]
  split <;> rfl

theorem reports_record (backend : HostedBackend) (outcome : CallMetrics) :
    reports (record backend outcome) =
      if backend.metrics then [outcome] else [] := by
  rw [record]
  split <;> rfl

/-- What the sink should be told of a result. -/
def outcomeOf (backend : HostedBackend) (latencyMs : UInt64) :
    Except AgentError LlmResponse → CallMetrics
  | .error _ => failed backend latencyMs
  | .ok answer => succeeded backend latencyMs answer

section

variable [Parser] {backend : HostedBackend} {latencyMs : UInt64} {sent : Sent}
  {ending : List Event × Except AgentError LlmResponse}

theorem Gives.success {answer : LlmResponse}
    (gives : Gives backend sent answer) : Success sent := by
  obtain ⟨resp, raw, parsed, text, same, fine, -⟩ := gives
  exact ⟨resp, same, fine⟩

theorem Settled.eq_ok_iff (settled : Settled backend latencyMs sent ending)
    {answer : LlmResponse} :
    ending.2 = .ok answer ↔ Gives backend sent answer := by
  cases settled with
  | failed e unfit =>
      constructor
      · exact nofun
      · intro gives
        exact absurd gives.success unfit
  | lost e lost =>
      constructor
      · exact nofun
      · intro gives
        exact absurd gives (lost.2 answer)
  | given given gives =>
      constructor
      · intro same
        cases same
        exact gives
      · intro again
        exact congrArg Except.ok (gives.unique again)

theorem Settled.requests_eq (settled : Settled backend latencyMs sent ending) :
    requests ending.1 = [] := by
  cases settled with
  | failed e unfit => exact requests_record _ _
  | lost e lost => rfl
  | given given gives => exact requests_record _ _

theorem Settled.reports_of_lost (settled : Settled backend latencyMs sent ending)
    (lost : Lost backend sent) :
    reports ending.1 = [] ∧ ∃ e, ending.2 = .error e := by
  cases settled with
  | failed e unfit => exact absurd lost.1 unfit
  | lost e lost => exact ⟨rfl, e, rfl⟩
  | given given gives => exact absurd gives (lost.2 given)

theorem Settled.reports_of_not_lost
    (settled : Settled backend latencyMs sent ending)
    (kept : ¬ Lost backend sent) :
    reports ending.1 = if backend.metrics then
      [outcomeOf backend latencyMs ending.2] else [] := by
  cases settled with
  | failed e unfit => exact reports_record _ _
  | lost e lost => exact absurd lost kept
  | given given gives => exact reports_record _ _

variable [FloatTexts] [StatusTexts]

/-- The same request is sent again after each pause, and the first of four
answers that is not about the rate decides what the caller gets. -/
theorem complete_tries (backend : HostedBackend) (req : LlmRequest)
    (network : Nat → Sent) (clock : Nat → UInt64) :
    ∃ last ≤ backoffsMs.length,
      (∀ earlier < last, Limited (network earlier)) ∧
      (last < backoffsMs.length → ¬ Limited (network last)) ∧
      requests (complete backend req network clock).1 =
        script (backend.post req) last ∧
      ∀ answer, (complete backend req network clock).2 = .ok answer ↔
        Gives backend (network last) answer := by
  rcases decides_or_limited network with ⟨last, decides⟩ | limited
  · have settled := settle_settled backend (clock last) (network last)
    rw [complete_of_decides req decides]
    obtain ⟨few, limited, decided⟩ := decides
    refine ⟨last, few, limited, fun _ => decided, ?_, ?_⟩
    · rw [requests_script_append, settled.requests_eq, List.append_nil]
    · intro answer
      exact settled.eq_ok_iff
  · rw [complete_of_limited req limited]
    refine ⟨backoffsMs.length, Nat.le_refl _, ?_, ?_, ?_, ?_⟩
    · intro earlier before
      exact limited earlier (Nat.le_of_lt before)
    · intro less
      exact absurd less (Nat.lt_irrefl _)
    · rw [requests_script_append, requests_record, List.append_nil]
    · intro answer
      constructor
      · exact nofun
      · intro gives
        have last := limited backoffsMs.length (Nat.le_refl _)
        exact absurd gives.success (limited_not_success last)

/-- A call that ends in a success that cannot be read. -/
def Vanishes (backend : HostedBackend) (network : Nat → Sent) : Prop :=
  ∃ last, Decides network last ∧ Lost backend (network last)

theorem reports_of_vanishes (req : LlmRequest) {network : Nat → Sent}
    (clock : Nat → UInt64) (vanishes : Vanishes backend network) :
    reports (complete backend req network clock).1 = [] ∧
      ∃ e, (complete backend req network clock).2 = .error e := by
  obtain ⟨last, decides, lost⟩ := vanishes
  have settled := settle_settled backend (clock last) (network last)
  rw [complete_of_decides req decides, reports_script_append]
  exact settled.reports_of_lost lost

theorem reports_of_not_vanishes (req : LlmRequest) {network : Nat → Sent}
    (clock : Nat → UInt64) (heard : ¬ Vanishes backend network) :
    ∃ latencyMs, reports (complete backend req network clock).1 =
      if backend.metrics then
        [outcomeOf backend latencyMs (complete backend req network clock).2]
      else [] := by
  rcases decides_or_limited network with ⟨last, decides⟩ | limited
  · have settled := settle_settled backend (clock last) (network last)
    have kept : ¬ Lost backend (network last) := fun lost =>
      heard ⟨last, decides, lost⟩
    rw [complete_of_decides req decides, reports_script_append]
    exact ⟨clock last, settled.reports_of_not_lost kept⟩
  · rw [complete_of_limited req limited, reports_script_append]
    exact ⟨clock (backoffsMs.length + 1), reports_record _ _⟩

end

end TrustLayer.ThemisAgents.Complete
