import TrustLayer.Library.Runs
import TrustLayer.AgentGuard.Hook.Contract
import Mathlib.Logic.Function.Basic

/-!
# Band rooms

One trait and its three implementations: the in-memory room, the scripted room
that wraps it, and the client of a subprocess.  Each call is one step.
-/

namespace TrustLayer.Themis

open TrustLayer.Library
open TrustLayer.AgentGuard (Json)

/-- `Uuid::new_v5`. -/
class UuidV5 where
  newV5 : BitVec 128 → List UInt8 → BitVec 128

/-- `Uuid::NAMESPACE_OID`. -/
def namespaceOid : BitVec 128 := 0x6ba7b8129dad11d180b400c04fd430c8

structure RoomId where
  uuid : BitVec 128
  deriving DecidableEq

/-- `sender` is the source's `from`. -/
structure BandMessage where
  sender : Str
  body : Str
  mentions : List Str
  tsMs : Int
  deriving DecidableEq

inductive BandError where
  | unknownRoom (room : RoomId)
  | crossTenantPost (tenant targetTenant : Str)
  | transport (text : Str)
  deriving DecidableEq

/-- A call that reads the clock takes its reading, `now`. -/
class BandRoom (σ : Type) where
  openRoom (tenantId invoiceId : Str) (backend : σ) : Except BandError RoomId × σ
  postMessage (room : RoomId) (fromTenant fromAgent body : Str)
    (mentions : List Str) (now : Int) (backend : σ) : Except BandError Unit × σ
  history (room : RoomId) (now : Int) (backend : σ) :
    Except BandError (List BandMessage) × σ
  close (room : RoomId) (backend : σ) : Except BandError Unit × σ

/-- The default method of the trait. -/
def BandRoom.tail {σ : Type} [BandRoom σ] (room : RoomId) (n : Nat) (now : Int)
    (backend : σ) : Except BandError (List BandMessage) × σ :=
  let (answer, after) := BandRoom.history room now backend
  (answer.map fun all => (all.reverse.take n).reverse, after)

/-- The tail is the end of the history, of the length asked for where the
history is that long. -/
theorem BandRoom.tail_eq_ok {σ : Type} [BandRoom σ] {room : RoomId} {n : Nat}
    {now : Int} {backend : σ} {all : List BandMessage}
    (read : (BandRoom.history room now backend).1 = .ok all) :
    ∃ recent, (BandRoom.tail room n now backend).1 = .ok recent ∧
      recent <:+ all ∧ recent.length = min n all.length := by
  refine ⟨(all.reverse.take n).reverse, ?_, ?_, ?_⟩
  · change Except.map _ (BandRoom.history room now backend).1 = _
    rw [read]
    rfl
  · rw [← List.reverse_prefix, List.reverse_reverse]
    exact List.take_prefix n all.reverse
  · simp

/-! ## Room identifiers -/

/-- `format!("{tenant_id}:{invoice_id}")`. -/
def roomKey (tenantId invoiceId : Str) : Str :=
  tenantId ++ ':' :: invoiceId

def roomIdFor [UuidV5] (tenantId invoiceId : Str) : RoomId :=
  ⟨UuidV5.newV5 namespaceOid (utf8Bytes (roomKey tenantId invoiceId))⟩

/-- One tenant continues the other past the separator, by a piece that the
other's invoice begins with. -/
def Confusable (first second : Str × Str) : Prop :=
  ∃ piece : Str,
    second.1 = first.1 ++ ':' :: piece ∧ first.2 = piece ++ ':' :: second.2 ∨
      first.1 = second.1 ++ ':' :: piece ∧ second.2 = piece ++ ':' :: first.2

theorem roomKey_eq_iff {first second : Str × Str} :
    roomKey first.1 first.2 = roomKey second.1 second.2 ↔
      first = second ∨ Confusable first second := by
  obtain ⟨firstTenant, firstInvoice⟩ := first
  obtain ⟨secondTenant, secondInvoice⟩ := second
  simp only [roomKey, Confusable, Prod.mk.injEq]
  constructor
  · intro same
    rcases List.append_eq_append_iff.mp same with
      ⟨extra, tenant, invoice⟩ | ⟨extra, tenant, invoice⟩
    · cases extra with
      | nil => simp_all
      | cons separator piece =>
          obtain ⟨rfl, rest⟩ := List.cons.inj invoice
          exact Or.inr ⟨piece, Or.inl ⟨tenant, rest⟩⟩
    · cases extra with
      | nil => simp_all
      | cons separator piece =>
          obtain ⟨rfl, rest⟩ := List.cons.inj invoice
          exact Or.inr ⟨piece, Or.inr ⟨tenant, rest⟩⟩
  · rintro (⟨rfl, rfl⟩ | ⟨piece, ⟨rfl, rfl⟩ | ⟨rfl, rfl⟩⟩)
    · rfl
    · simp
    · simp

/-- A name-based identifier tells two names apart. -/
def KeepsApart [UuidV5] (left right : Str) : Prop :=
  UuidV5.newV5 namespaceOid (utf8Bytes left) =
      UuidV5.newV5 namespaceOid (utf8Bytes right) →
    utf8Bytes left = utf8Bytes right

theorem roomIdFor_ne_iff [UuidV5] {first second : Str × Str}
    (apart : KeepsApart (roomKey first.1 first.2) (roomKey second.1 second.2))
    (different : first ≠ second) :
    roomIdFor first.1 first.2 ≠ roomIdFor second.1 second.2 ↔
      ¬ Confusable first second := by
  refine not_congr ?_
  constructor
  · intro same
    have keys := utf8Bytes_injective (apart (congrArg RoomId.uuid same))
    exact (roomKey_eq_iff.mp keys).resolve_left different
  · intro confusable
    rw [roomIdFor, roomKey_eq_iff.mpr (Or.inr confusable), roomIdFor]

/-! ## The in-memory rooms -/

structure MockRoom where
  ownerTenant : Str
  history : List BandMessage

structure MockBandRoom where
  rooms : RoomId → Option MockRoom

namespace MockBandRoom

def new : MockBandRoom := ⟨fun _ => none⟩

variable [UuidV5]

def openRoom (tenantId invoiceId : Str) (mock : MockBandRoom) :
    Except BandError RoomId × MockBandRoom :=
  let roomId := roomIdFor tenantId invoiceId
  let entry := (mock.rooms roomId).getD ⟨tenantId, []⟩
  (.ok roomId, ⟨Function.update mock.rooms roomId (some entry)⟩)

omit [UuidV5] in
def postMessage (room : RoomId) (fromTenant fromAgent body : Str)
    (mentions : List Str) (now : Int) (mock : MockBandRoom) :
    Except BandError Unit × MockBandRoom :=
  match mock.rooms room with
  | none => (.error (.unknownRoom room), mock)
  | some entry =>
      if entry.ownerTenant ≠ fromTenant then
        (.error (.crossTenantPost fromTenant entry.ownerTenant), mock)
      else
        let message := ⟨fromAgent, body, mentions, now⟩
        let entry := { entry with history := entry.history ++ [message] }
        (.ok (), ⟨Function.update mock.rooms room (some entry)⟩)

omit [UuidV5] in
def history (room : RoomId) (mock : MockBandRoom) :
    Except BandError (List BandMessage) :=
  match mock.rooms room with
  | none => .error (.unknownRoom room)
  | some entry => .ok entry.history

instance : BandRoom MockBandRoom where
  openRoom := openRoom
  postMessage := postMessage
  history room _ mock := (mock.history room, mock)
  close _ mock := (.ok (), mock)

end MockBandRoom

structure ScriptedBandRoom where
  inner : MockBandRoom

namespace ScriptedBandRoom

def new : ScriptedBandRoom := ⟨.new⟩

/-- The inherent method, which answers for an unknown room too. -/
def history (room : RoomId) (scripted : ScriptedBandRoom) : List BandMessage :=
  ((scripted.inner.rooms room).map MockRoom.history).getD []

instance [UuidV5] : BandRoom ScriptedBandRoom where
  openRoom tenantId invoiceId scripted :=
    (BandRoom.openRoom tenantId invoiceId scripted.inner).map id mk
  postMessage room fromTenant fromAgent body mentions now scripted :=
    (BandRoom.postMessage room fromTenant fromAgent body mentions now
      scripted.inner).map id mk
  history room now scripted :=
    (BandRoom.history room now scripted.inner).map id mk
  close room scripted := (BandRoom.close room scripted.inner).map id mk

/-- The two readings of a history agree; an unknown room reads as empty. -/
theorem history_eq [UuidV5] (room : RoomId) (now : Int)
    (scripted : ScriptedBandRoom) :
    scripted.history room =
      (BandRoom.history room now scripted).1.toOption.getD [] := by
  change ((scripted.inner.rooms room).map MockRoom.history).getD [] =
    (scripted.inner.history room).toOption.getD []
  rw [MockBandRoom.history]
  cases scripted.inner.rooms room <;> rfl

end ScriptedBandRoom

/-! ## The client of the subprocess -/

/-- `send_request`; an error is its display text. -/
class PythonBandBridge (β : Type) where
  sendRequest (request : Json) (bridge : β) : Except Str Json × β

structure RealBandRoom (β : Type) where
  bridge : β
  /-- The chatroom of each room opened and not closed. -/
  rooms : RoomId → Option Str

/-- The agents added to a new chatroom. -/
def participants : List Str :=
  ["extractor".toList, "po_matcher".toList, "fraud_auditor".toList,
    "gaap_classifier".toList, "provenance_signer".toList]

namespace RealBandRoom

def connect {β : Type} (bridge : β) : RealBandRoom β :=
  ⟨bridge, fun _ => none⟩

def request (op : Str) (payload : List (Str × Json)) : Json :=
  .object [("op".toList, .string op), ("payload".toList, .object payload)]

def createChatroom (tenantId invoiceId : Str) : Json :=
  request "create_chatroom".toList
    [("tenant_id".toList, .string tenantId),
      ("invoice_id".toList, .string invoiceId)]

def addParticipant (chatroomId agent : Str) : Json :=
  request "add_participant".toList
    [("chatroom_id".toList, .string chatroomId),
      ("agent_id".toList, .string agent)]

def sendMessage (chatroomId fromAgent body : Str) (mentions : List Str) : Json :=
  request "send_message".toList
    [("chatroom_id".toList, .string chatroomId),
      ("from_agent".toList, .string fromAgent), ("body".toList, .string body),
      ("mentions".toList, .array (mentions.map .string))]

def getHistory (chatroomId : Str) : Json :=
  request "get_history".toList [("chatroom_id".toList, .string chatroomId)]

def closeChatroom (chatroomId : Str) : Json :=
  request "close_chatroom".toList [("chatroom_id".toList, .string chatroomId)]

/-- `From<themis_band_client::error::BandError>`. -/
def bridgeError (text : Str) : BandError :=
  .transport ("band-client: ".toList ++ text)

def missingChatroomId : BandError :=
  .transport "create_chatroom: missing chatroom_id".toList

def missingMessages : BandError :=
  .transport "get_history: missing messages".toList

/-- One entry of a history answer, with the defaults of its fields. -/
def readMessage (now : Int) (message : Json) : BandMessage where
  sender := ((message.get "from_agent".toList).bind Json.asStr).getD
    "unknown".toList
  body := ((message.get "body".toList).bind Json.asStr).getD []
  mentions := (((message.get "mentions".toList).bind Json.asArray).map
    fun items => items.filterMap Json.asStr).getD []
  tsMs := ((message.get "ts_ms".toList).bind Json.asI64).getD now

def readHistory (now : Int) (answer : Json) :
    Except BandError (List BandMessage) :=
  match (answer.get "messages".toList).bind Json.asArray with
  | some messages => .ok (messages.map (readMessage now))
  | none => .error missingMessages

variable [UuidV5] {β : Type} [PythonBandBridge β]

def openRoom (tenantId invoiceId : Str) (real : RealBandRoom β) :
    Except BandError RoomId × RealBandRoom β :=
  let orchRoom := roomIdFor tenantId invoiceId
  if (real.rooms orchRoom).isSome then (.ok orchRoom, real)
  else
    match PythonBandBridge.sendRequest (createChatroom tenantId invoiceId)
        real.bridge with
    | (.error text, bridge) =>
        (.error (bridgeError text), { real with bridge })
    | (.ok answer, bridge) =>
        match (answer.get "chatroom_id".toList).bind Json.asStr with
        | none => (.error missingChatroomId, { real with bridge })
        | some chatroomId =>
            -- best effort: the answers are ignored
            let bridge := participants.foldl (fun bridge agent =>
              (PythonBandBridge.sendRequest (addParticipant chatroomId agent)
                bridge).2) bridge
            (.ok orchRoom,
              ⟨bridge, Function.update real.rooms orchRoom (some chatroomId)⟩)

omit [UuidV5] in
def postMessage (room : RoomId) (_fromTenant fromAgent body : Str)
    (mentions : List Str) (_now : Int) (real : RealBandRoom β) :
    Except BandError Unit × RealBandRoom β :=
  match real.rooms room with
  | none => (.error (.unknownRoom room), real)
  | some chatroomId =>
      match PythonBandBridge.sendRequest
          (sendMessage chatroomId fromAgent body mentions) real.bridge with
      | (.error text, bridge) =>
          (.error (bridgeError text), { real with bridge })
      | (.ok _, bridge) => (.ok (), { real with bridge })

omit [UuidV5] in
/-- What the bridge reports of a chatroom. -/
def chatroomHistory (chatroomId : Str) (now : Int) (bridge : β) :
    Except BandError (List BandMessage) × β :=
  match PythonBandBridge.sendRequest (getHistory chatroomId) bridge with
  | (.error text, bridge) => (.error (bridgeError text), bridge)
  | (.ok answer, bridge) => (readHistory now answer, bridge)

omit [UuidV5] in
def history (room : RoomId) (now : Int) (real : RealBandRoom β) :
    Except BandError (List BandMessage) × RealBandRoom β :=
  match real.rooms room with
  | none => (.error (.unknownRoom room), real)
  | some chatroomId =>
      let (answer, bridge) := chatroomHistory chatroomId now real.bridge
      (answer, { real with bridge })

omit [UuidV5] in
def close (room : RoomId) (real : RealBandRoom β) :
    Except BandError Unit × RealBandRoom β :=
  match real.rooms room with
  | none => (.ok (), real)
  | some chatroomId =>
      (.ok (),
        ⟨(PythonBandBridge.sendRequest (closeChatroom chatroomId) real.bridge).2,
          Function.update real.rooms room none⟩)

instance : BandRoom (RealBandRoom β) where
  openRoom := openRoom
  postMessage := postMessage
  history := history
  close := close

end RealBandRoom

/-! ## Who opened a room -/

inductive Call where
  | openRoom (tenantId invoiceId : Str)
  | postMessage (room : RoomId) (fromTenant fromAgent body : Str)
      (mentions : List Str) (now : Int)
  | history (room : RoomId) (now : Int)
  | close (room : RoomId)

/-- A backend, with the tenant whose call first opened each room. -/
structure Tracked (σ : Type) where
  backend : σ
  opener : RoomId → Option Str

namespace Tracked

def start {σ : Type} (backend : σ) : Tracked σ := ⟨backend, fun _ => none⟩

variable {σ : Type} [BandRoom σ]

def step (before : Tracked σ) : Call → Option (Tracked σ)
  | .openRoom tenantId invoiceId =>
      match BandRoom.openRoom tenantId invoiceId before.backend with
      | (.ok room, backend) =>
          some ⟨backend, Function.update before.opener room
            (some ((before.opener room).getD tenantId))⟩
      | (.error _, backend) => some ⟨backend, before.opener⟩
  | .postMessage room fromTenant fromAgent body mentions now =>
      some ⟨(BandRoom.postMessage room fromTenant fromAgent body mentions now
        before.backend).2, before.opener⟩
  | .history room now =>
      some ⟨(BandRoom.history room now before.backend).2, before.opener⟩
  | .close room => some ⟨(BandRoom.close room before.backend).2, before.opener⟩

/-- Another tenant than this one opened the room. -/
def Foreign (before : Tracked σ) (room : RoomId) (tenant : Str) : Prop :=
  ∃ opener, before.opener room = some opener ∧ opener ≠ tenant

/-- A post by a foreign tenant is rejected and leaves the room unchanged. -/
def Isolates (before : Tracked σ) (call : Call) (after : Tracked σ) : Prop :=
  ∀ room tenant agent body mentions now,
    call = .postMessage room tenant agent body mentions now →
      before.Foreign room tenant →
        (∃ error, (BandRoom.postMessage room tenant agent body mentions now
            before.backend).1 = .error error) ∧
          ∀ later, (BandRoom.history room later after.backend).1 =
            (BandRoom.history room later before.backend).1

end Tracked

/-! ## Isolation -/

section

variable [UuidV5]

/-- The owner that the rooms record is the tenant that first opened them. -/
def Owned (before : Tracked MockBandRoom) : Prop :=
  ∀ room, before.opener room =
    (before.backend.rooms room).map MockRoom.ownerTenant

theorem owned_openRoom {before : Tracked MockBandRoom} (owned : Owned before)
    (tenantId invoiceId : Str) :
    Owned ⟨(before.backend.openRoom tenantId invoiceId).2,
      Function.update before.opener (roomIdFor tenantId invoiceId)
        (some ((before.opener (roomIdFor tenantId invoiceId)).getD tenantId))⟩ := by
  intro room
  dsimp only [MockBandRoom.openRoom]
  by_cases same : room = roomIdFor tenantId invoiceId
  · subst same
    rw [Function.update_self, Function.update_self, owned]
    cases before.backend.rooms (roomIdFor tenantId invoiceId) <;> rfl
  · rw [Function.update_of_ne same, Function.update_of_ne same]
    exact owned room

omit [UuidV5] in
theorem owned_postMessage {before : Tracked MockBandRoom} (owned : Owned before)
    (room : RoomId) (tenant agent body : Str) (mentions : List Str) (now : Int) :
    Owned ⟨(before.backend.postMessage room tenant agent body mentions now).2,
      before.opener⟩ := by
  rw [MockBandRoom.postMessage]
  cases found : before.backend.rooms room with
  | none => exact owned
  | some entry =>
      dsimp only
      by_cases foreign : entry.ownerTenant ≠ tenant
      · rw [if_pos foreign]
        exact owned
      · rw [if_neg foreign]
        intro other
        dsimp only
        by_cases same : other = room
        · subst same
          rw [Function.update_self]
          rw [owned other, found]
          rfl
        · rw [Function.update_of_ne same]
          exact owned other

omit [UuidV5] in
/-- A foreign post finds the owner recorded and changes nothing. -/
theorem MockBandRoom.postMessage_of_foreign {before : Tracked MockBandRoom}
    (owned : Owned before) {room : RoomId} {tenant : Str}
    (foreign : before.Foreign room tenant) (agent body : Str)
    (mentions : List Str) (now : Int) :
    ∃ owner, before.opener room = some owner ∧
      before.backend.postMessage room tenant agent body mentions now =
        (.error (.crossTenantPost tenant owner), before.backend) := by
  obtain ⟨owner, opened, different⟩ := foreign
  have recorded := (owned room).symm.trans opened
  obtain ⟨entry, found, rfl⟩ := Option.map_eq_some_iff.mp recorded
  refine ⟨entry.ownerTenant, opened, ?_⟩
  rw [MockBandRoom.postMessage, found]
  exact if_pos different

theorem mock_step {before after : Tracked MockBandRoom} {call : Call}
    (owned : Owned before) (happens : before.step call = some after) :
    before.Isolates call after ∧ Owned after := by
  cases call with
  | openRoom tenantId invoiceId =>
      cases happens
      exact ⟨nofun, owned_openRoom owned tenantId invoiceId⟩
  | postMessage room tenant agent body mentions now =>
      cases happens
      refine ⟨?_, owned_postMessage owned room tenant agent body mentions now⟩
      intro room tenant agent body mentions now isPost foreign
      cases isPost
      obtain ⟨owner, _, answered⟩ := MockBandRoom.postMessage_of_foreign owned
        foreign agent body mentions now
      refine ⟨⟨_, congrArg Prod.fst answered⟩, fun later => ?_⟩
      exact congrArg (fun mock => MockBandRoom.history room mock)
        (congrArg Prod.snd answered)
  | history room now =>
      cases happens
      exact ⟨nofun, owned⟩
  | close room =>
      cases happens
      exact ⟨nofun, owned⟩

theorem mock_isolates (calls : List Call) :
    EachStep Tracked.step Tracked.Isolates (Tracked.start MockBandRoom.new)
      calls :=
  EachStep.of_kept
    (fun _ _ _ owned happens => mock_step owned happens) fun _ => rfl

/-- The rooms inside a scripted backend. -/
def innerOf (before : Tracked ScriptedBandRoom) : Tracked MockBandRoom :=
  ⟨before.backend.inner, before.opener⟩

theorem scripted_isolates (calls : List Call) :
    EachStep Tracked.step Tracked.Isolates (Tracked.start ScriptedBandRoom.new)
      calls := by
  have simulated : EachStep Tracked.step Tracked.Isolates
      (innerOf (Tracked.start ScriptedBandRoom.new)) calls :=
    mock_isolates calls
  refine EachStep.of_simulation ?_ ?_ simulated
  · intro before call after happens
    cases call <;> cases happens <;> rfl
  · intro before call after isolates room tenant agent body mentions now isPost
      foreign
    exact isolates room tenant agent body mentions now isPost foreign

/-- The bridge answers this post with an error and reports the chatroom as
before. -/
def BridgeRefuses {β : Type} [PythonBandBridge β] (bridge : β)
    (chatroomId agent body : Str) (mentions : List Str) : Prop :=
  let sent := PythonBandBridge.sendRequest
    (RealBandRoom.sendMessage chatroomId agent body mentions) bridge
  (∃ text, sent.1 = .error text) ∧
    ∀ now, (RealBandRoom.chatroomHistory chatroomId now sent.2).1 =
      (RealBandRoom.chatroomHistory chatroomId now bridge).1

/-- No foreign post reaches an open chatroom, unless the bridge refuses it. -/
def KeptOut {β : Type} [PythonBandBridge β]
    (before : Tracked (RealBandRoom β)) (call : Call)
    (_ : Tracked (RealBandRoom β)) : Prop :=
  ∀ room tenant agent body mentions now,
    call = .postMessage room tenant agent body mentions now →
      before.Foreign room tenant →
        ∀ chatroomId, before.backend.rooms room = some chatroomId →
          BridgeRefuses before.backend.bridge chatroomId agent body mentions

section

variable {β : Type} [PythonBandBridge β]

omit [UuidV5] in
/-- A post to an open chatroom is the request to the bridge, whoever posts. -/
theorem postMessage_of_cached {real : RealBandRoom β} {room : RoomId}
    {chatroomId : Str} (cached : real.rooms room = some chatroomId)
    (tenant agent body : Str) (mentions : List Str) (now : Int) :
    real.postMessage room tenant agent body mentions now =
      let sent := PythonBandBridge.sendRequest
        (RealBandRoom.sendMessage chatroomId agent body mentions) real.bridge
      ((sent.1.mapError RealBandRoom.bridgeError).map fun _ => (),
        { real with bridge := sent.2 }) := by
  rw [RealBandRoom.postMessage, cached]
  dsimp only
  cases PythonBandBridge.sendRequest
    (RealBandRoom.sendMessage chatroomId agent body mentions) real.bridge with
  | mk answer bridge => cases answer <;> rfl

omit [UuidV5] in
theorem history_of_cached {real : RealBandRoom β} {room : RoomId}
    {chatroomId : Str} (cached : real.rooms room = some chatroomId) (now : Int) :
    (real.history room now).1 =
      (RealBandRoom.chatroomHistory chatroomId now real.bridge).1 := by
  rw [RealBandRoom.history, cached]

omit [UuidV5] in
theorem mapError_eq_error_iff {answer : Except Str Json} :
    (∃ error, (answer.mapError RealBandRoom.bridgeError).map (fun _ => ()) =
        .error error) ↔ ∃ text, answer = .error text := by
  cases answer with
  | error text => exact ⟨fun _ => ⟨text, rfl⟩, fun _ => ⟨_, rfl⟩⟩
  | ok answer => exact ⟨nofun, nofun⟩

theorem real_step {before after : Tracked (RealBandRoom β)} {call : Call}
    (happens : before.step call = some after) :
    before.Isolates call after ↔ KeptOut before call after := by
  refine forall_congr' fun room => forall_congr' fun tenant =>
    forall_congr' fun agent => forall_congr' fun body =>
    forall_congr' fun mentions => forall_congr' fun now =>
    imp_congr_right fun isPost => imp_congr_right fun _ => ?_
  subst isPost
  cases happens
  change ((∃ error, (before.backend.postMessage room tenant agent body mentions
      now).1 = .error error) ∧
    ∀ later, (RealBandRoom.history room later (before.backend.postMessage room
        tenant agent body mentions now).2).1 =
      (before.backend.history room later).1) ↔ _
  cases cached : before.backend.rooms room with
  | none =>
      refine iff_of_true ?_ nofun
      rw [RealBandRoom.postMessage, cached]
      exact ⟨⟨_, rfl⟩, fun _ => rfl⟩
  | some chatroomId =>
      rw [postMessage_of_cached cached]
      simp only [Option.some.injEq, forall_eq', BridgeRefuses]
      refine and_congr mapError_eq_error_iff (forall_congr' fun later => ?_)
      rw [history_of_cached cached, RealBandRoom.history]
      simp only [cached]

theorem RealBandRoom.openRoom_eq_ok {real : RealBandRoom β} {room : RoomId}
    {tenantId invoiceId : Str}
    (opened : (real.openRoom tenantId invoiceId).1 = .ok room) :
    room = roomIdFor tenantId invoiceId := by
  rw [RealBandRoom.openRoom] at opened
  split at opened
  · exact (Except.ok.inj opened).symm
  · split at opened
    · cases opened
    · split at opened
      · cases opened
      · exact (Except.ok.inj opened).symm

end

/-- Some state of the backend opens this room for the pair. -/
def OpenedAs (σ : Type) [BandRoom σ] (pair : Str × Str) (room : RoomId) : Prop :=
  ∃ backend : σ, (BandRoom.openRoom pair.1 pair.2 backend).1 = .ok room

/-- One of the three implementations opens these rooms for the two pairs. -/
def OpenedBoth (β : Type) [PythonBandBridge β] (first second : Str × Str)
    (room other : RoomId) : Prop :=
  OpenedAs MockBandRoom first room ∧ OpenedAs MockBandRoom second other ∨
    OpenedAs ScriptedBandRoom first room ∧
      OpenedAs ScriptedBandRoom second other ∨
    OpenedAs (RealBandRoom β) first room ∧ OpenedAs (RealBandRoom β) second other

theorem openedBoth_eq {β : Type} [PythonBandBridge β]
    {first second : Str × Str} {room other : RoomId}
    (opened : OpenedBoth β first second room other) :
    room = roomIdFor first.1 first.2 ∧ other = roomIdFor second.1 second.2 := by
  rcases opened with ⟨⟨_, one⟩, ⟨_, two⟩⟩ | ⟨⟨_, one⟩, ⟨_, two⟩⟩ |
    ⟨⟨_, one⟩, ⟨_, two⟩⟩
  · exact ⟨(Except.ok.inj one).symm, (Except.ok.inj two).symm⟩
  · exact ⟨(Except.ok.inj one).symm, (Except.ok.inj two).symm⟩
  · exact ⟨RealBandRoom.openRoom_eq_ok one, RealBandRoom.openRoom_eq_ok two⟩

/-- The in-memory rooms isolate tenants in every run.  The client of the
subprocess does in exactly the runs that keep foreign posts out of open
chatrooms.  Two pairs share a room exactly if the separator confuses them. -/
theorem rooms_isolate_iff {β : Type} [PythonBandBridge β]
    {first second : Str × Str} (different : first ≠ second)
    (apart :
      KeepsApart (roomKey first.1 first.2) (roomKey second.1 second.2)) :
    (∀ calls, EachStep Tracked.step Tracked.Isolates
      (Tracked.start MockBandRoom.new) calls) ∧
    (∀ calls, EachStep Tracked.step Tracked.Isolates
      (Tracked.start ScriptedBandRoom.new) calls) ∧
    (∀ (bridge : β) calls,
      EachStep Tracked.step Tracked.Isolates
          (Tracked.start (RealBandRoom.connect bridge)) calls ↔
        EachStep Tracked.step KeptOut
          (Tracked.start (RealBandRoom.connect bridge)) calls) ∧
    ∀ room other, OpenedBoth β first second room other →
      (room ≠ other ↔ ¬ Confusable first second) := by
  refine ⟨mock_isolates, scripted_isolates, fun bridge calls => ?_,
    fun room other opened => ?_⟩
  · exact eachStep_congr fun _ _ _ happens => real_step happens
  · obtain ⟨rfl, rfl⟩ := openedBoth_eq opened
    exact roomIdFor_ne_iff apart different

end

/-- A bridge that keeps every request and answers each alike. -/
structure KeepingBridge where
  requests : List Json

instance : PythonBandBridge KeepingBridge where
  sendRequest request bridge :=
    (.ok (.object [("chatroom_id".toList, .string "chat-1".toList)]),
      ⟨bridge.requests ++ [request]⟩)

/-- `new_v5` under the OID namespace, on the names used below. -/
instance oidNames : UuidV5 where
  newV5 _ name :=
    if name = utf8Bytes "a:b:c".toList then
      0x495072edecda5dcd91e63234ee120595
    else if name = utf8Bytes "stark:inv-001".toList then
      0xa73ae43cd2fe546592fd4e443ccdd57f
    else if name = utf8Bytes "stark:inv-002".toList then
      0xacd73c274b215843a71d66a10f927bab
    else 0

def starkRoom : RoomId := ⟨0xa73ae43cd2fe546592fd4e443ccdd57f⟩

def roguePost : Call :=
  .postMessage starkRoom "wayne".toList "extractor".toList "x".toList [] 0

/-- After one tenant opens a room: its opener, and whether another's post is
answered without an error. -/
theorem roguePost_answered :
    (runFrom Tracked.step
      (Tracked.start (RealBandRoom.connect (KeepingBridge.mk [])))
      [.openRoom "stark".toList "inv-001".toList]).map (fun reached =>
        (reached.opener starkRoom,
          (BandRoom.postMessage starkRoom "wayne".toList "extractor".toList
            "x".toList [] 0 reached.backend).1.isOk)) =
      some (some "stark".toList, true) := by
  decide

theorem rooms_do_not_isolate :
    (¬ ∀ calls, EachStep Tracked.step Tracked.Isolates
      (Tracked.start (RealBandRoom.connect (KeepingBridge.mk []))) calls) ∧
    ("a:b".toList, "c".toList) ≠ ("a".toList, "b:c".toList) ∧
    roomIdFor "a:b".toList "c".toList = roomIdFor "a".toList "b:c".toList := by
  refine ⟨fun isolates => ?_, by decide, by decide⟩
  have answered := roguePost_answered
  obtain ⟨reached, happened, facts⟩ := Option.map_eq_some_iff.mp answered
  obtain ⟨opened, accepted⟩ := Prod.mk.inj facts
  have refused := eachStep_iff.mp (isolates [_, roguePost]) [_] roguePost []
    reached _ rfl happened rfl
  obtain ⟨error, failed⟩ := (refused starkRoom _ _ _ _ _ rfl
    ⟨_, opened, by decide⟩).1
  rw [failed] at accepted
  cases accepted

theorem rooms_isolate_iff_stark :
    ("stark".toList, "inv-001".toList) ≠ ("stark".toList, "inv-002".toList) ∧
    ∀ room other, OpenedBoth KeepingBridge ("stark".toList, "inv-001".toList)
        ("stark".toList, "inv-002".toList) room other →
      (room ≠ other ↔ ¬ Confusable ("stark".toList, "inv-001".toList)
        ("stark".toList, "inv-002".toList)) := by
  have different : ("stark".toList, "inv-001".toList) ≠
      ("stark".toList, "inv-002".toList) := by decide
  have apart : KeepsApart (roomKey "stark".toList "inv-001".toList)
      (roomKey "stark".toList "inv-002".toList) := by
    unfold KeepsApart
    decide
  exact ⟨different, (rooms_isolate_iff different apart).2.2.2⟩

end TrustLayer.Themis
