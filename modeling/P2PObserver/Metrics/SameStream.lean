import P2PObserver.Archive.AnyOrder
import P2PObserver.Metrics.DropGauges
import P2PObserver.Metrics.Exact
import P2PObserver.Render.EventLine

/-! # One stream, several tools

The metrics, the archive's summary and the printed lines read the same events, each by its own
names and with its own memory. Where they tell of the same thing they agree.
-/

namespace P2PObserver

namespace Metrics

open ArchiveStats (enumLabel disconnectReasonName failureReasonName)

/-! ## Names -/

/-- `DISCONNECT_REASON_PEER_CLOSED` as `PeerClosed`, the name of a value in the generated code. -/
def variant (start name : String) : String :=
  let words := (name.toList.drop start.length).splitOn '_'
  String.ofList (words.flatMap fun word => word.take 1 ++ (word.drop 1).map Char.toLower)

/-- The enumerations that are both counted and printed, with what their names begin with. -/
def shared : List (String × EnumNames × Render.EnumNames) :=
  [("ANNOUNCEMENT_TYPE_", announcementType, Render.announcementType),
    ("PROBE_STAGE_", probeStage, Render.probeStage),
    ("ADDR_MESSAGE_", addrMessage, Render.addrMessage),
    ("DISCONNECT_REASON_", disconnectReason, Render.disconnectReason),
    ("FAILURE_REASON_", failureReason, Render.failureReason),
    ("OUR_FAULT_REASON_", ourFaultReason, Render.ourFaultReason)]

theorem shared_variants : ∀ e ∈ shared,
    e.2.1.map (variant e.1) = e.2.2 ∧ variant e.1 (e.2.1.headD "") = "Unknown" := by
  decide +kernel

/-- A value is printed under the name it is counted under, and one without a name is counted as
    unknown. -/
theorem tryFrom_variant {e : String × EnumNames × Render.EnumNames} (here : e ∈ shared)
    (raw : Int32) : (Render.tryFrom e.2.2 raw).getD "Unknown" = variant e.1 (e.2.1.get raw) := by
  obtain ⟨names, first⟩ := shared_variants e here
  rw [Render.tryFrom, EnumNames.get, ← names]
  split
  · exact first.symm
  · rw [List.getElem?_map]
    cases e.2.1[raw.toInt.toNat]? with
    | none => exact first.symm
    | some name => rfl

/-- The summary names the reasons as the counters do. -/
theorem disconnectReason_get (d : ArchiveStats.Disconnected) {raw : Int32}
    (read : d.reason = raw.toInt) :
    disconnectReasonName d.getReason = disconnectReason.get raw := by
  rw [ArchiveStats.Disconnected.getReason, EnumNames.get, read]
  cases raw.toInt with
  | negSucc n =>
      rw [if_pos (Int.negSucc_lt_zero n)]
      rfl
  | ofNat n => rcases n with _ | _ | _ | _ | _ | _ | _ | _ | _ | _ | _ | _ | _ | n <;> rfl

theorem failureReason_get (raw : Int32) :
    failureReasonName (ArchiveStats.failureReason raw.toInt) = failureReason.get raw := by
  rw [EnumNames.get]
  cases raw.toInt with
  | negSucc n =>
      rw [if_pos (Int.negSucc_lt_zero n)]
      rfl
  | ofNat n => rcases n with _ | _ | _ | _ | _ | _ | _ | _ | _ | _ | n <;> rfl

/-! ## What is remembered -/

/-- The memory of a network but for its labels. -/
def Memory.state (net : Memory) : NetworkState String :=
  ⟨net.instanceId, net.bestHeight.map UInt32.toNat, net.blocks⟩

def Received.sight (event : Received) : Option (Sight String) :=
  match event.event with
  | some (.blockAnnouncement blk) =>
      some ⟨blk.blockHash, blk.height.map UInt32.toNat, blk.newToUs⟩
  | _ => none

theorem observeBlockAnnouncement_state (net : Memory) (event : Received)
    (blk : Decoded.BlockAnnouncement) :
    (observeBlockAnnouncement net event blk).1.state = net.state.saw event.timestampMs
      ⟨blk.blockHash, blk.height.map UInt32.toNat, blk.newToUs⟩ := by
  have higher (height : UInt32) : (net.bestHeight.map UInt32.toNat).all (· < height.toNat) =
      net.bestHeight.all (· < height) := by
    rw [Option.all_map]
    rfl
  unfold observeBlockAnnouncement NetworkState.saw
  extract_lets atype placed shape raise net' announced seen
  have raised : net'.state = seen := by
    unfold net' seen raise Memory.state
    cases blk.height with
    | none => rfl
    | some height =>
        rw [Option.map_some]
        simp only [higher]
        rw [Option.filter_some]
        cases net.bestHeight.all (· < height) <;> rfl
  rw [← raised]
  split <;> rfl

theorem Tool.restarts_step (t : Tool String) (message : Message String) (network : String) :
    (t.step message).gauges.observerRestartsTotal network =
      t.gauges.observerRestartsTotal network +
        if network = message.1 then
          ((t.network network).instanceId.any (· ≠ message.2.instanceId)).toNat
        else 0 := by
  rw [Tool.gauges_step, observePipeline_eq]
  dsimp only
  by_cases own : network = message.1
  · subst own
    cases (t.network message.1).instanceId.any (· ≠ message.2.instanceId) <;> simp
  · simp [own]

variable [HostText]

theorem handleMessage_state (net : Memory) {message : NatsMessage} {event : Received}
    (decoded : message.event = some event) : (handleMessage net message).1.state =
      net.state.after event.instanceId event.timestampMs event.sight := by
  rw [handleMessage, decoded]
  simp only [observe, observeEvent, Received.sight]
  cases event.event with
  | none => rfl
  | some about =>
      cases about with
      | blockAnnouncement blk => exact observeBlockAnnouncement_state _ event blk
      | _ => rfl

/-- What an event is about leaves the counter of restarts alone. -/
theorem weigh_restarts_observeEvent (net : Memory) (event : Received) :
    Touch.weigh (fun t => t.family = .observerRestartsTotal) (observeEvent net event).2 = 0 := by
  cases about : event.event with
  | none =>
      rw [observeEvent, about]
      rfl
  | some what =>
      apply weigh_elsewhere net event .pipeline (own_family .observerRestartsTotal)
      rw [about]
      cases what <;> exact Part.noConfusion

omit [HostText] in
theorem weigh_restarts_observePipeline (net : Memory) (event : Received) :
    Touch.weigh (fun t => t.family = .observerRestartsTotal) (observePipeline net event).2 =
      (net.instanceId.any (· ≠ event.instanceId)).toNat := by
  have kinds : Touch.weigh (fun t => t.family = .observerRestartsTotal) observeDroppedByKind = 0 :=
    rfl
  simp only [observePipeline, Touch.weigh_append, Touch.weigh_if, kinds]
  cases net.instanceId.any (· ≠ event.instanceId) <;>
    simp [kinds, Touch.observe, Touch.set, Touch.inc]

theorem weigh_restarts (net : Memory) {message : NatsMessage} {event : Received}
    (decoded : message.event = some event) :
    Touch.weigh (fun t => t.family = .observerRestartsTotal) (handleMessage net message).2 =
      (net.instanceId.any (· ≠ event.instanceId)).toNat := by
  rw [handleMessage, decoded]
  simp only [observe, Touch.weigh_cons, Touch.weigh_append, weigh_restarts_observePipeline,
    weigh_restarts_observeEvent]
  simp [Touch.inc, Touch.incBy]

/-! ## Side by side -/

/-- The network and the event of a message that has both. -/
def NatsMessage.heard (message : NatsMessage) : Option (String × Received) :=
  (networkOf message.subject).bind fun network => message.event.map fun event => (network, event)

/-- The same event of the same network, as far as it is remembered. -/
structure SameMessage (told : Message String) (heard : String × Received) : Prop where
  network : told.1 = heard.1
  timestampMs : told.2.timestampMs = heard.2.timestampMs
  instanceId : told.2.instanceId = heard.2.instanceId
  sight : sight told.2 = heard.2.sight

/-- The same is remembered of every network, and as many restarts are counted. -/
structure Alike (t : Tool String) (r : Registry) : Prop where
  remembered : ∀ network, t.network network = (r.network network).state
  restarts : ∀ network, t.gauges.observerRestartsTotal network =
    Touch.weigh (fun t => t.family = .observerRestartsTotal) (r.on network)

namespace Alike

omit [HostText] in
theorem new : Alike .new .new := ⟨fun _ => rfl, fun _ => rfl⟩

variable {t : Tool String} {r : Registry} {message : NatsMessage}

/-- A message without a network or without an event is not remembered. -/
theorem passed (alike : Alike t r) (unheard : message.heard = none) : Alike t (r.step message) := by
  have kept (network : String) (here : networkOf message.subject = some network) :
      message.event = none := by
    rw [NatsMessage.heard, here, Option.bind_some, Option.map_eq_none_iff] at unheard
    exact unheard
  constructor
  · intro network
    rw [alike.remembered, Registry.network_step]
    split
    · rename_i here
      rw [handleMessage, kept network here]
    · rfl
  · intro network
    rw [alike.restarts, Registry.on_step, Touch.weigh_append]
    split
    · rename_i here
      rw [handleMessage, kept network here]
      rfl
    · rfl

theorem step (alike : Alike t r) {told : Message String} {heard : String × Received}
    (found : message.heard = some heard) (same : SameMessage told heard) :
    Alike (t.step told) (r.step message) := by
  obtain ⟨other, here, found⟩ := Option.bind_eq_some_iff.mp found
  obtain ⟨event, decoded, rfl⟩ := Option.map_eq_some_iff.mp found
  have own (network : String) : networkOf message.subject = some network ↔ network = told.1 := by
    rw [here, same.network, Option.some.injEq, eq_comm]
  constructor
  · intro network
    rw [Tool.network_step, Registry.network_step, alike.remembered, same.instanceId,
      same.timestampMs, same.sight]
    simp only [own]
    split
    · rw [handleMessage_state _ decoded]
    · rfl
  · intro network
    rw [Tool.restarts_step, Registry.on_step, Touch.weigh_append, alike.restarts, alike.remembered,
      same.instanceId]
    simp only [own]
    split
    · rw [weigh_restarts _ decoded]
      rfl
    · rfl

/-- One message after another, whatever of them is not an event of a network. -/
theorem run {messages : List NatsMessage} {told : List (Message String)} (alike : Alike t r)
    (same : List.Forall₂ SameMessage told (messages.filterMap NatsMessage.heard)) :
    Alike (Run.runFrom Tool.step t told) (Run.runFrom Registry.step r messages) := by
  induction messages generalizing told t r with
  | nil =>
      cases same
      exact alike
  | cons message messages ih =>
      rw [List.filterMap_cons] at same
      split at same
      · rename_i unheard
        exact ih (alike.passed unheard) same
      · rename_i heard found
        cases same with
        | cons first rest =>
            rw [Run.runFrom_cons, Run.runFrom_cons]
            exact ih (alike.step found first) rest

end Alike

/-- What the gauges are kept with and what the counters are kept with are the same over any run. -/
theorem run_alike {messages : List NatsMessage} {told : List (Message String)}
    (same : List.Forall₂ SameMessage told (messages.filterMap NatsMessage.heard)) :
    Alike (Run.runFrom Tool.step .new told) (Registry.run messages) := Alike.new.run same

/-! ## The summary of an archive -/

def archivedSession (d : Decoded.Disconnected) : ArchiveStats.Disconnected where
  uptimeMs := d.uptimeMs.toNat
  reason := d.reason.toInt
  messagesByCommand := d.messagesByCommand.entries.map fun e => (e.1, e.2.toNat)
  messagesOther := d.messagesOther.toNat

/-- An event as the archive's summary reads it. -/
def Received.archived (event : Received) : ArchiveStats.PeerEvent where
  timestampMs := event.timestampMs.toNat
  peerAddr := event.peerAddr
  droppedEvents := event.droppedEvents.toNat
  instanceId := event.instanceId
  event := event.event.map fun
    | .handshake hs => .handshake hs.userAgent hs.services
    | .connectionResult result => .connectionResult (result.map fun
        | .disconnected d => .disconnected (archivedSession d)
        | .failed reason _ => .failed reason.toInt
        | .ourFault _ _ => .ourFault)
    | .blockAnnouncement blk => .blockAnnouncement blk.blockHash (blk.height.map UInt32.toNat)
    | .addressAnnouncement ann => .addressAnnouncement ann.rateLimited.toNat event.addressServices
    | .pingRtt _ => .pingRtt
    | .compactBlockProbe _ => .compactBlockProbe
    | .feeFilter _ => .feeFilter
    | .sendCmpct _ => .sendCmpct

/-- What the summary makes of the events of a network. -/
def summary (network : String) (messages : List NatsMessage) : ArchiveStats.Stats :=
  ((received network messages).map Received.archived).foldl ArchiveStats.Stats.observe {}

section Summary

open ArchiveStats (Added)

/-- A count of the summary is what some counters show, where both add the same for every event. -/
theorem weigh_summary {which : Touch → Bool} {part : Part}
    (own : ∀ t, which t = true → t.family.part = part) (other : part ≠ .pipeline)
    (count : ArchiveStats.Stats → Nat) (adds : Added → Nat) (start : count {} = 0)
    (carries : ∀ s e, count (s.observe e) = count s + adds (Added.of e.event))
    (added : ∀ net event, Touch.weigh which (observeEvent net event).2 =
      adds (Added.of event.archived.event))
    (network : String) (messages : List NatsMessage) :
    Touch.weigh which ((Registry.run messages).on network) = count (summary network messages) := by
  rw [Registry.run_weigh own other added, summary,
    foldl_adds count (fun e => adds (Added.of e.event)) carries, start, Nat.zero_add, List.map_map]
  rfl

/-- The outcome and the reason an attempt is counted under. -/
def ended : Option Decoded.Attempt → List String
  | some (.disconnected d) =>
      ["disconnected", enumLabel (disconnectReason.get d.reason) "DISCONNECT_REASON_"]
  | some (.failed reason _) => ["failed", enumLabel (failureReason.get reason) "FAILURE_REASON_"]
  | some (.ourFault reason _) =>
      ["our_fault", enumLabel (ourFaultReason.get reason) "OUR_FAULT_REASON_"]
  | none => ["unknown", "unknown"]

omit [HostText] in
theorem own_attempts (chosen : List String → Prop) [DecidablePred chosen] (t : Touch)
    (here : decide (t.family = .connectionAttemptsTotal ∧ chosen t.labels) = true) :
    t.family.part = .attempts := by
  rw [(of_decide_eq_true here).1]
  rfl

omit [HostText] in
/-- An attempt is counted once, under its outcome and its reason. -/
theorem weigh_observeConnectionResult (chosen : List String → Prop) [DecidablePred chosen]
    (result : Option Decoded.Attempt) :
    Touch.weigh (fun t => t.family = .connectionAttemptsTotal ∧ chosen t.labels)
      (observeConnectionResult result) = if chosen (ended result) then 1 else 0 := by
  have once (labels setup : List String) :
      Touch.weigh (fun t => t.family = .connectionAttemptsTotal ∧ chosen t.labels)
        [.inc .connectionAttemptsTotal labels, .observe .connectionSetupSeconds setup] =
      if chosen labels then 1 else 0 := by
    by_cases here : chosen labels <;> simp [Touch.inc, Touch.observe, here]
  rcases result with _ | d | _ | _
  · exact once _ _
  · have session : Touch.weigh (fun t => t.family = .connectionAttemptsTotal ∧ chosen t.labels)
        (observeSession d) = 0 := by
      simp [observeSession, Touch.inc, Touch.incBy, Touch.observe, Touch.weigh_map_none]
    rw [observeConnectionResult, Touch.weigh_append, session, Nat.zero_add]
    exact once _ _
  · exact once _ _
  · exact once _ _

theorem weigh_ended (chosen : List String → Prop) [DecidablePred chosen] (net : Memory)
    (event : Received) :
    Touch.weigh (fun t => t.family = .connectionAttemptsTotal ∧ chosen t.labels)
        (observeEvent net event).2 = match event.event with
      | some (.connectionResult result) => if chosen (ended result) then 1 else 0
      | _ => 0 := by
  by_cases about : partOf event.event = .attempts
  · obtain ⟨result, about⟩ := of_attempts about
    rw [observeEvent, about]
    exact weigh_observeConnectionResult chosen result
  · rw [weigh_elsewhere net event .attempts (own_attempts chosen) about]
    split
    · rename_i result same
      rw [same] at about
      exact absurd rfl about
    · rfl

theorem weigh_sessionEnds (label : String) (net : Memory) (event : Received) :
    Touch.weigh (fun t => t.family = .connectionAttemptsTotal ∧ t.labels = ["disconnected", label])
        (observeEvent net event).2 =
      (Added.of event.archived.event).sessionEnds.count label := by
  rw [weigh_ended (· = ["disconnected", label]), Received.archived]
  rcases event.event with _ | about
  · rfl
  cases about with
  | connectionResult result =>
      rcases result with _ | d | _ | _
      · simp [ended, Added.of]
      · have name := disconnectReason_get (archivedSession d) (rfl : _ = d.reason.toInt)
        simp [ended, Added.of, name, List.count_singleton]
      · simp [ended, Added.of]
      · simp [ended, Added.of]
  | _ => rfl

theorem weigh_failures (label : String) (net : Memory) (event : Received) :
    Touch.weigh (fun t => t.family = .connectionAttemptsTotal ∧ t.labels = ["failed", label])
        (observeEvent net event).2 =
      (Added.of event.archived.event).failures.count label := by
  rw [weigh_ended (· = ["failed", label]), Received.archived]
  rcases event.event with _ | about
  · rfl
  cases about with
  | connectionResult result =>
      rcases result with _ | _ | _ | _
      · simp [ended, Added.of]
      · simp [ended, Added.of]
      · simp [ended, Added.of, failureReason_get, List.count_singleton]
      · simp [ended, Added.of]
  | _ => rfl

theorem weigh_ourFaults (net : Memory) (event : Received) :
    Touch.weigh (fun t => t.family = .connectionAttemptsTotal ∧ t.labels.head? = some "our_fault")
        (observeEvent net event).2 = (Added.of event.archived.event).ourFaults := by
  rw [weigh_ended (·.head? = some "our_fault"), Received.archived]
  rcases event.event with _ | about
  · rfl
  cases about with
  | connectionResult result => rcases result with _ | _ | _ | _ <;> rfl
  | _ => rfl

omit [HostText] in
/-- Only an announcement adds a block to the summary. -/
theorem archived_block (event : Received) :
    (Added.of event.archived.event).block.isSome = decide (partOf event.event = .blocks) := by
  rw [Received.archived]
  rcases event.event with _ | about
  · rfl
  cases about with
  | connectionResult result => rcases result with _ | _ | _ | _ <;> rfl
  | _ => rfl

omit [HostText] in
theorem of_blocks {event : Option Decoded.Event} (about : partOf event = .blocks) :
    ∃ blk, event = some (.blockAnnouncement blk) := by
  unfold partOf at about
  split at about <;> cases about
  exact ⟨_, rfl⟩

theorem weigh_announcements (net : Memory) (event : Received) :
    Touch.weigh (fun t => t.family = .blockAnnouncementsTotal) (observeEvent net event).2 =
      (Added.of event.archived.event).block.isSome.toNat := by
  rw [archived_block]
  by_cases about : partOf event.event = .blocks
  · rw [decide_eq_true about]
    obtain ⟨blk, about⟩ := of_blocks about
    rw [observeEvent, about]
    simp only [observeBlockAnnouncement]
    split <;> simp [Touch.inc, Touch.observe, Touch.set]
  · rw [decide_eq_false about]
    exact weigh_elsewhere net event .blocks (own_family .blockAnnouncementsTotal) about

theorem weigh_handshakes (net : Memory) (event : Received) :
    Touch.weigh (fun t => t.family = .handshakesTotal) (observeEvent net event).2 =
      (Added.of event.archived.event).handshakeServices.length := by
  rw [weigh_once net event rfl, Received.handshake?, Received.archived]
  rcases event.event with _ | about
  · rfl
  cases about with
  | connectionResult result => rcases result with _ | _ | _ | _ <;> rfl
  | _ => rfl

namespace Registry

/-- The summary of a network's events and the counters of the network tell the same: how sessions
    ended, why attempts failed, how many we could not make, and how many blocks were announced and
    handshakes completed. -/
theorem run_summary (network : String) (messages : List NatsMessage) :
    (∀ label, (run messages).counter network .connectionAttemptsTotal ["disconnected", label] =
      .ofNat (((summary network messages).sessionEnds[label]?).getD 0)) ∧
    (∀ label, (run messages).counter network .connectionAttemptsTotal ["failed", label] =
      .ofNat (((summary network messages).failures[label]?).getD 0)) ∧
    Touch.weigh (fun t => t.family = .connectionAttemptsTotal ∧ t.labels.head? = some "our_fault")
      ((run messages).on network) = (summary network messages).ourFaults ∧
    (run messages).total network .blockAnnouncementsTotal =
      .ofNat (summary network messages).announcements ∧
    (run messages).total network .handshakesTotal =
      .ofNat (summary network messages).handshakeServices.fields := by
  have fields (s : ArchiveStats.Stats) (e : ArchiveStats.PeerEvent) :
      (s.observe e).handshakeServices.fields =
        s.handshakeServices.fields + (Added.of e.event).handshakeServices.length := by
    rw [ArchiveStats.Stats.observe_eq,
      foldl_adds ArchiveStats.ServiceBits.fields (fun _ => 1) fun b services => by
        rw [ArchiveStats.ServiceBits.observe_eq]]
    simp
  refine ⟨fun label => ?_, fun label => ?_, ?_, ?_, ?_⟩
  · rw [counter, weigh_summary (own_attempts (· = ["disconnected", label])) (by decide)
      (fun s => (s.sessionEnds[label]?).getD 0) (fun added => added.sessionEnds.count label) rfl
      (fun s e => by rw [ArchiveStats.Stats.observe_eq, BTreeMap.getD_countAll])
      (weigh_sessionEnds label)]
  · rw [counter, weigh_summary (own_attempts (· = ["failed", label])) (by decide)
      (fun s => (s.failures[label]?).getD 0) (fun added => added.failures.count label) rfl
      (fun s e => by rw [ArchiveStats.Stats.observe_eq, BTreeMap.getD_countAll])
      (weigh_failures label)]
  · exact weigh_summary (own_attempts (·.head? = some "our_fault")) (by decide) (·.ourFaults)
      (·.ourFaults) rfl (fun s e => by rw [ArchiveStats.Stats.observe_eq]) weigh_ourFaults network
      messages
  · exact total_eq _ network _ (weigh_summary (own_family _) (by decide) (·.announcements)
      (·.block.isSome.toNat) rfl (fun s e => by rw [ArchiveStats.Stats.observe_eq])
      weigh_announcements network messages)
  · exact total_eq _ network _ (weigh_summary (own_family _) (by decide)
      (·.handshakeServices.fields) (·.handshakeServices.length) rfl fields weigh_handshakes network
      messages)

end Registry

end Summary

end Metrics

end P2PObserver
