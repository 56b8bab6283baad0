import P2PObserver.Metrics.Counted

/-! # What the counters add up to

A handshake, a message of a session and a gossiped address are each counted once, under a label of
their own or under the one for the rest.
-/

namespace P2PObserver

namespace Metrics

/-! ## Adding up -/

namespace Touch

variable (which : Touch → Bool)

@[simp] theorem weigh_nil : weigh which [] = 0 := rfl

@[simp] theorem weigh_cons (t : Touch) (touches : List Touch) :
    weigh which (t :: touches) = (if which t then t.amount else 0) + weigh which touches := by
  cases chosen : which t <;> simp [weigh, chosen]

@[simp] theorem weigh_append (first second : List Touch) :
    weigh which (first ++ second) = weigh which first + weigh which second := by
  simp [weigh]

@[simp] theorem weigh_if (c : Prop) [Decidable c] (touches : List Touch) :
    weigh which (if c then touches else []) = if c then weigh which touches else 0 := by
  split <;> rfl

/-- Touches that are all counted. -/
theorem weigh_map_all {X : Type} {touch : X → Touch} (chosen : ∀ x, which (touch x) = true)
    (xs : List X) : weigh which (xs.map touch) = (xs.map fun x => (touch x).amount).sum := by
  induction xs with
  | nil => rfl
  | cons x xs ih => simp [chosen, ih]

/-- Touches none of which is counted. -/
theorem weigh_map_none {X : Type} {touch : X → Touch} (passed : ∀ x, which (touch x) = false)
    (xs : List X) : weigh which (xs.map touch) = 0 := by
  induction xs with
  | nil => rfl
  | cons x xs ih => simp [passed, ih]

end Touch

theorem sum_toList_length {X Y : Type} (f : X → Option Y) (xs : List X) :
    (xs.map fun x => (f x).toList.length).sum = (xs.filterMap f).length := by
  induction xs with
  | nil => rfl
  | cons x xs ih =>
      rw [List.map_cons, List.sum_cons, ih, List.filterMap_cons]
      cases f x with
      | none => exact Nat.zero_add _
      | some y => exact Nat.add_comm ..

/-! ## Where touches come from -/

/-- What an event can be about, besides the pipeline that delivered it. -/
inductive Part where
  | pipeline
  | handshakes
  | pings
  | blocks
  | probes
  | attempts
  | gossip
  | policy
  deriving DecidableEq

def Family.part : Family → Part
  | eventsTotal | eventBytesTotal | undecodableEventsTotal | eventDelaySeconds
  | lastEventTimestampSeconds | observerDroppedEvents | observerDroppedEventsByKind
  | observerRestartsTotal => .pipeline
  | connectionAttemptsTotal | connectionSetupSeconds | sessionDurationSeconds
  | sessionMessagesTotal | unsolicitedPongsTotal | silentSessionsTotal => .attempts
  | handshakesTotal | handshakeUserAgentsTotal | handshakeProtocolVersionsTotal
  | handshakeServicesTotal | handshakeFeaturesTotal | handshakeClockSkewSeconds
  | handshakeHeightDelta => .handshakes
  | pingRttSeconds | pingTcpSrttSeconds | pingTcpMinRttSeconds | pingTcpRttvarSeconds
  | pingTcpCwndSegments | pingTcpRetransmits | pingTcpDeliveryRateBytesPerSecond => .pings
  | bestHeight | blockAnnouncementsTotal | blocksTotal | blockAnnouncementBatchSize
  | blockPropagationSeconds | compactBlockShortIds | compactBlockPrefilledTxs => .blocks
  | compactBlockProbesTotal => .probes
  | feeFiltersTotal | feeFilterSatPerKvb | sendCmpctTotal => .policy
  | addressAnnouncementsTotal | addressAnnouncementEntries | addressEntriesTotal
  | addressEntryServicesTotal | addressEntryAgeSeconds | unparsedAddressEntriesTotal
  | rateLimitedAddressEntriesTotal | solicitedAddressAnnouncementsTotal | selfAnnouncementsTotal
  | addressRateLimitTokens => .gossip

/-- Touches of one part only. -/
def Part.Only (part : Part) (touches : List Touch) : Prop := ∀ t ∈ touches, t.family.part = part

instance (part : Part) (touches : List Touch) : Decidable (part.Only touches) :=
  inferInstanceAs (Decidable (∀ t ∈ touches, _))

namespace Part.Only

theorem nil {part : Part} : part.Only [] := nofun

theorem cons {part : Part} {t : Touch} {touches : List Touch} (here : t.family.part = part)
    (rest : part.Only touches) : part.Only (t :: touches) := List.forall_mem_cons.mpr ⟨here, rest⟩

theorem append {part : Part} {first second : List Touch} (one : part.Only first)
    (two : part.Only second) : part.Only (first ++ second) := List.forall_mem_append.mpr ⟨one, two⟩

theorem if_then {part : Part} {touches : List Touch} (only : part.Only touches) (c : Prop)
    [Decidable c] : part.Only (if c then touches else []) := by
  split
  · exact only
  · nofun

theorem map {part : Part} {X : Type} {touch : X → Touch}
    (only : ∀ x, (touch x).family.part = part) (xs : List X) : part.Only (xs.map touch) :=
  List.forall_mem_map.mpr fun x _ => only x

end Part.Only

theorem observePipeline_part (net : Memory) (event : Received) :
    Part.pipeline.Only (observePipeline net event).2 := by
  unfold observePipeline
  dsimp only
  exact .append (.append (by decide) (.if_then (by decide) _)) (.if_then (by decide) _)

theorem observeHandshake_part (net : Memory) (event : Received) (hs : Decoded.Handshake) :
    Part.handshakes.Only (observeHandshake net event hs).2 := by
  unfold observeHandshake
  refine .append (.append (.append (.append ?_ (.map (by intro; rfl) _)) (.map (by intro; rfl) _))
    (by decide)) (.if_then (by decide) _)
  exact .cons rfl (.cons rfl (.cons rfl .nil))

theorem observePing_part (ping : Decoded.PingRtt) : Part.pings.Only (observePing ping) := by
  unfold observePing
  cases ping.tcpStats with
  | none => decide
  | some tcp =>
      simp only [Option.map_some, Option.getD_some, observeTcp]
      exact .cons rfl (.append (.append (by decide) (.if_then (by decide) _))
        (.if_then (by decide) _))

theorem observeBlockAnnouncement_part (net : Memory) (event : Received)
    (blk : Decoded.BlockAnnouncement) :
    Part.blocks.Only (observeBlockAnnouncement net event blk).2 := by
  simp only [observeBlockAnnouncement]
  split
  · exact .append (.append (.append (.cons rfl (by decide)) (.if_then (by decide) _))
      (.if_then (by decide) _)) (.cons rfl .nil)
  · exact .append (.append (.append (.cons rfl (by decide)) (.if_then (by decide) _))
      (.if_then (by decide) _)) (.if_then (.cons rfl .nil) _)

theorem observeConnectionResult_part (result : Option Decoded.Attempt) :
    Part.attempts.Only (observeConnectionResult result) := by
  have ended (outcome reason : String) : Part.attempts.Only
      [.inc .connectionAttemptsTotal [outcome, reason],
        .observe .connectionSetupSeconds [outcome]] := .cons rfl (.cons rfl .nil)
  cases result with
  | none => exact ended _ _
  | some attempt =>
      cases attempt with
      | disconnected d =>
          refine .append ?_ (ended _ _)
          exact .append (.append (.append (.append (by decide) (.map (by intro; rfl) _))
            (.if_then (.cons rfl .nil) _)) (.if_then (.cons rfl .nil) _)) (.if_then (by decide) _)
      | failed reason setupMs => exact ended _ _
      | ourFault reason setupMs => exact ended _ _

theorem observeAddressAnnouncement_part [HostText] (event : Received)
    (ann : Decoded.AddressAnnouncement) :
    Part.gossip.Only (observeAddressAnnouncement event ann) := by
  unfold observeAddressAnnouncement
  dsimp only
  refine .append (.append (.append (.append (.append (.append (.append (.append
    (.cons rfl (by decide)) (.if_then (.cons rfl .nil) _)) (.if_then (.cons rfl .nil) _))
    (.if_then (by decide) _)) (by decide)) (.if_then (by decide) _)) (.cons rfl ?_))
    (.map (by intro; rfl) _)) (.map (by intro; rfl) _)
  exact .map (by intro; rfl) _

theorem observeSendCmpct_part (sc : SendCmpct) : Part.policy.Only (observeSendCmpct sc) :=
  .cons rfl .nil

/-- The part an event is about; one about nothing is about the pipeline. -/
def partOf : Option Decoded.Event → Part
  | some (.handshake _) => .handshakes
  | some (.pingRtt _) => .pings
  | some (.blockAnnouncement _) => .blocks
  | some (.compactBlockProbe _) => .probes
  | some (.connectionResult _) => .attempts
  | some (.addressAnnouncement _) => .gossip
  | some (.feeFilter _) | some (.sendCmpct _) => .policy
  | none => .pipeline

theorem observeEvent_part [HostText] (net : Memory) (event : Received) :
    (partOf event.event).Only (observeEvent net event).2 := by
  unfold observeEvent
  split <;> rename_i about <;> rw [about]
  · exact observeHandshake_part net event _
  · exact observePing_part _
  · exact observeBlockAnnouncement_part net event _
  · exact observeConnectionResult_part _
  · exact observeAddressAnnouncement_part event _
  · exact .cons rfl .nil
  · exact .cons rfl (.cons rfl .nil)
  · exact observeSendCmpct_part _
  · exact .nil

/-- Touches of another part than the ones counted add nothing. -/
theorem weigh_other {which : Touch → Bool} {part : Part} {touches : List Touch}
    (only : part.Only touches) (own : ∀ t, which t = true → t.family.part ≠ part) :
    Touch.weigh which touches = 0 := by
  have untouched : touches.filter which = [] := by
    rw [List.filter_eq_nil_iff]
    exact fun t touched chosen => own t chosen (only t touched)
  rw [Touch.weigh, untouched]
  rfl

/-- What a message adds to the counters of a part is what its event does, if it is about it. -/
theorem weigh_handleMessage [HostText] {which : Touch → Bool} {part : Part}
    (own : ∀ t, which t = true → t.family.part = part) (other : part ≠ .pipeline) (net : Memory)
    (message : NatsMessage) :
    Touch.weigh which (handleMessage net message).2 = (message.event.map fun event =>
      Touch.weigh which (observeEvent (observePipeline net event).1 event).2).getD 0 := by
  have passed {touches : List Touch} (only : Part.pipeline.Only touches) :
      Touch.weigh which touches = 0 :=
    weigh_other only fun t chosen => own t chosen ▸ other
  unfold handleMessage
  cases message.event with
  | none =>
      have undecodable : Part.pipeline.Only [.inc .undecodableEventsTotal []] := .cons rfl .nil
      exact passed undecodable
  | some event =>
      have front : Part.pipeline.Only [.inc .eventsTotal [kindOf event.event],
        .incBy .eventBytesTotal [kindOf event.event] message.size] := .cons rfl (.cons rfl .nil)
      have split : (observe net event).2 =
        (observePipeline net event).2 ++ (observeEvent (observePipeline net event).1 event).2 := rfl
      change Touch.weigh which ([_, _] ++ (observe net event).2) = _
      rw [split, Touch.weigh_append, Touch.weigh_append, passed front,
        passed (observePipeline_part net event)]
      simp

/-! ## What comes in -/

/-- The events of a network, oldest first. -/
def received (network : String) (messages : List NatsMessage) : List Received :=
  (messages.filter fun m => networkOf m.subject = some network).filterMap NatsMessage.event

namespace Received

def handshake? (event : Received) : Option Decoded.Handshake :=
  match event.event with
  | some (.handshake hs) => some hs
  | _ => none

/-- How many attempts an event is about. -/
def attempts (event : Received) : Nat :=
  match event.event with
  | some (.connectionResult _) => 1
  | _ => 0

/-- How many messages of an ended session an event is about. -/
def sessionMessages (event : Received) : Nat :=
  match event.event with
  | some (.connectionResult (some (.disconnected d))) =>
      (d.messagesByCommand.entries.map (·.2.toNat)).sum + d.messagesOther.toNat
  | _ => 0

/-- How many addresses an event announces. -/
def addresses (event : Received) : Nat :=
  match event.event with
  | some (.addressAnnouncement ann) => ann.addresses.length
  | _ => 0

end Received

def handshakes (network : String) (messages : List NatsMessage) : List Decoded.Handshake :=
  (received network messages).filterMap Received.handshake?

/-- The user agents of a network's handshakes as labels, oldest first. -/
def agents (network : String) (messages : List NatsMessage) : List String :=
  (handshakes network messages).map fun hs => userAgent hs.userAgent

def versions (network : String) (messages : List NatsMessage) : List String :=
  (handshakes network messages).map fun hs => toString hs.protocolVersion

/-! ## One event -/

section Events

variable [HostText] (net : Memory) (event : Received)

theorem weigh_elsewhere {which : Touch → Bool} (part : Part)
    (own : ∀ t, which t = true → t.family.part = part) (elsewhere : partOf event.event ≠ part) :
    Touch.weigh which (observeEvent net event).2 = 0 :=
  weigh_other (observeEvent_part net event) fun t chosen => own t chosen ▸ elsewhere.symm

omit [HostText] in
/-- A family's counters belong to its part. -/
theorem own_family (family : Family) (t : Touch) (chosen : decide (t.family = family) = true) :
    t.family.part = family.part := congrArg Family.part (of_decide_eq_true chosen)

omit [HostText] in
theorem of_attempts {event : Option Decoded.Event} (about : partOf event = .attempts) :
    ∃ result, event = some (.connectionResult result) := by
  unfold partOf at about
  split at about <;> cases about
  exact ⟨_, rfl⟩

omit [HostText] in
theorem of_gossip {event : Option Decoded.Event} (about : partOf event = .gossip) :
    ∃ ann, event = some (.addressAnnouncement ann) := by
  unfold partOf at about
  split at about <;> cases about
  exact ⟨_, rfl⟩

omit [HostText] in
theorem of_handshakes {event : Option Decoded.Event} (about : partOf event = .handshakes) :
    ∃ hs, event = some (.handshake hs) := by
  unfold partOf at about
  split at about <;> cases about
  exact ⟨_, rfl⟩

theorem weigh_attempts :
    Touch.weigh (fun t => t.family = .connectionAttemptsTotal) (observeEvent net event).2 =
      event.attempts := by
  by_cases about : partOf event.event = .attempts
  · obtain ⟨result, about⟩ := of_attempts about
    rw [observeEvent, Received.attempts, about]
    cases result with
    | none => rfl
    | some attempt =>
        cases attempt with
        | disconnected d =>
            simp [observeConnectionResult, observeSession, Touch.inc, Touch.incBy, Touch.observe,
              Touch.weigh_map_none]
        | failed reason setupMs => rfl
        | ourFault reason setupMs => rfl
  · rw [weigh_elsewhere net event .attempts (own_family .connectionAttemptsTotal) about]
    unfold Received.attempts
    split
    · rename_i result same
      rw [same] at about
      exact absurd rfl about
    · rfl

theorem weigh_sessionMessages :
    Touch.weigh (fun t => t.family = .sessionMessagesTotal) (observeEvent net event).2 =
      event.sessionMessages := by
  by_cases about : partOf event.event = .attempts
  · obtain ⟨result, about⟩ := of_attempts about
    rw [observeEvent, Received.sessionMessages, about]
    cases result with
    | none => rfl
    | some attempt =>
        cases attempt with
        | disconnected d =>
            have left : (if 0 < d.messagesOther then d.messagesOther.toNat else 0) =
                d.messagesOther.toNat := by
              split
              · rfl
              · rename_i zero
                rw [UInt32.lt_iff_toNat_lt] at zero
                exact (Nat.eq_zero_of_not_pos zero).symm
            simp [observeConnectionResult, observeSession, Touch.inc, Touch.incBy, Touch.observe,
              Touch.weigh_map_all, left]
        | failed reason setupMs => rfl
        | ourFault reason setupMs => rfl
  · rw [weigh_elsewhere net event .attempts (own_family .sessionMessagesTotal) about]
    unfold Received.sessionMessages
    split
    · rename_i d same
      rw [same] at about
      exact absurd rfl about
    · rfl

theorem weigh_addresses :
    Touch.weigh (fun t => t.family = .addressEntriesTotal) (observeEvent net event).2 =
      event.addresses := by
  by_cases about : partOf event.event = .gossip
  · obtain ⟨ann, about⟩ := of_gossip about
    have gathered := (gather_spec (ann.addresses.map addressNet)).1
    have ages : Touch.weigh (fun t => t.family = .addressEntriesTotal)
        (ann.addresses.map fun _ => Touch.observe .addressEntryAgeSeconds []) = 0 :=
      Touch.weigh_map_none _ (fun _ => rfl) _
    rw [List.length_map] at gathered
    rw [observeEvent, Received.addresses, about]
    simp only [observeAddressAnnouncement, Touch.weigh_append, Touch.weigh_cons, ages]
    simp [Touch.inc, Touch.incBy, Touch.observe, Touch.set, Touch.weigh_map_all,
      Touch.weigh_map_none, gathered]
  · rw [weigh_elsewhere net event .gossip (own_family .addressEntriesTotal) about]
    unfold Received.addresses
    split
    · rename_i ann same
      rw [same] at about
      exact absurd rfl about
    · rfl

theorem weigh_handshake {which : Touch → Bool}
    (own : ∀ t, which t = true → t.family.part = .handshakes) :
    Touch.weigh which (observeEvent net event).2 = (event.handshake?.map fun hs =>
      Touch.weigh which (observeHandshake net event hs).2).getD 0 := by
  by_cases about : partOf event.event = .handshakes
  · obtain ⟨hs, about⟩ := of_handshakes about
    rw [observeEvent, Received.handshake?, about]
    rfl
  · rw [weigh_elsewhere net event .handshakes own about]
    unfold Received.handshake?
    split
    · rename_i hs same
      rw [same] at about
      exact absurd rfl about
    · rfl

omit [HostText] in
/-- A handshake counts under one user agent. -/
theorem weigh_agent (hs : Decoded.Handshake) (value : String) :
    Touch.weigh (fun t => t.family = .handshakeUserAgentsTotal ∧ t.labels = [value])
        (observeHandshake (observePipeline net event).1 event hs).2 =
      if net.userAgents.label OTHER (userAgent hs.userAgent) = value then 1 else 0 := by
  simp [observeHandshake, observePipeline, Touch.inc, Touch.observe, Touch.weigh_map_none]

omit [HostText] in
theorem weigh_version (hs : Decoded.Handshake) (value : String) :
    Touch.weigh (fun t => t.family = .handshakeProtocolVersionsTotal ∧ t.labels = [value])
        (observeHandshake (observePipeline net event).1 event hs).2 =
      if net.protocolVersions.label OTHER (toString hs.protocolVersion) = value then 1 else 0 := by
  simp [observeHandshake, observePipeline, Touch.inc, Touch.observe, Touch.weigh_map_none]

/-- The families a handshake counts in once. -/
def countsHandshakes (family : Family) : Bool :=
  family = .handshakesTotal ∨ family = .handshakeUserAgentsTotal ∨
    family = .handshakeProtocolVersionsTotal

omit [HostText] in
theorem countsHandshakes_part {family : Family} (once : countsHandshakes family = true) :
    family.part = .handshakes := by
  cases family <;> first | rfl | cases once

theorem weigh_once {family : Family} (once : countsHandshakes family = true) :
    Touch.weigh (fun t => t.family = family) (observeEvent net event).2 =
      event.handshake?.toList.length := by
  have known : family = .handshakesTotal ∨ family = .handshakeUserAgentsTotal ∨
      family = .handshakeProtocolVersionsTotal := of_decide_eq_true once
  rw [weigh_handshake net event fun t chosen =>
    (own_family family t chosen).trans (countsHandshakes_part once)]
  cases event.handshake? with
  | none => rfl
  | some hs =>
      rcases known with rfl | rfl | rfl <;>
        simp [observeHandshake, Touch.inc, Touch.observe, Touch.weigh_map_none]

omit [HostText] in
theorem observeBlockAnnouncement_labels (blk : Decoded.BlockAnnouncement) :
    (observeBlockAnnouncement net event blk).1.userAgents = net.userAgents ∧
      (observeBlockAnnouncement net event blk).1.protocolVersions = net.protocolVersions := by
  unfold observeBlockAnnouncement
  dsimp only
  cases blk.height.filter fun height => net.bestHeight.all fun best => decide (best < height) <;>
    split <;> exact ⟨rfl, rfl⟩

/-- Only a handshake asks for labels. -/
theorem observeEvent_labels :
    (observeEvent net event).1.userAgents = net.userAgents.run
        (event.handshake?.toList.map fun hs => userAgent hs.userAgent) ∧
      (observeEvent net event).1.protocolVersions = net.protocolVersions.run
        (event.handshake?.toList.map fun hs => toString hs.protocolVersion) := by
  unfold observeEvent Received.handshake?
  cases event.event with
  | none => exact ⟨rfl, rfl⟩
  | some about =>
      cases about with
      | blockAnnouncement blk => exact observeBlockAnnouncement_labels net event blk
      | handshake | pingRtt | connectionResult | addressAnnouncement | compactBlockProbe
      | feeFilter | sendCmpct => exact ⟨rfl, rfl⟩

theorem handleMessage_labels (message : NatsMessage) :
    (handleMessage net message).1.userAgents = net.userAgents.run
        ((message.event.bind Received.handshake?).toList.map fun hs => userAgent hs.userAgent) ∧
      (handleMessage net message).1.protocolVersions = net.protocolVersions.run
        ((message.event.bind Received.handshake?).toList.map fun hs =>
          toString hs.protocolVersion) := by
  unfold handleMessage
  cases message.event with
  | none => exact ⟨rfl, rfl⟩
  | some event => exact observeEvent_labels (observePipeline net event).1 event

end Events

/-! ## Runs -/

namespace Registry

variable [HostText] (r : Registry) (network : String) (message : NatsMessage)

theorem network_step : (r.step message).network network =
    if networkOf message.subject = some network then
      (handleMessage (r.network network) message).1
    else r.network network := by
  unfold Registry.step
  cases networkOf message.subject with
  | none => rfl
  | some other =>
      dsimp only
      rw [network_insert]
      by_cases here : network = other
      · subst here
        rw [if_pos rfl, if_pos rfl]
      · rw [if_neg here, if_neg fun same => here (Option.some.inj same).symm]

theorem on_step : (r.step message).on network = r.on network ++
    if networkOf message.subject = some network then
      (handleMessage (r.network network) message).2
    else [] := by
  unfold Registry.step
  cases networkOf message.subject with
  | none => exact (List.append_nil _).symm
  | some other =>
      simp only [on, List.filter_append, List.map_append]
      congr 1
      by_cases here : other = network
      · subst here
        rw [if_pos rfl, List.filter_eq_self.mpr, List.map_map]
        · exact List.map_id _
        · intro t listed
          obtain ⟨t, -, rfl⟩ := List.mem_map.mp listed
          exact decide_eq_true rfl
      · rw [if_neg fun same => here (Option.some.inj same), List.filter_eq_nil_iff.mpr]
        · rfl
        · intro t listed
          obtain ⟨t, -, rfl⟩ := List.mem_map.mp listed
          exact fun same => here (of_decide_eq_true same)

omit [HostText] in
theorem received_concat (messages : List NatsMessage) :
    received network (messages ++ [message]) = received network messages ++
      if networkOf message.subject = some network then message.event.toList else [] := by
  unfold received
  rw [List.filter_append, List.filterMap_append]
  congr 1
  by_cases here : networkOf message.subject = some network
  · have one : [message].filter (fun m => networkOf m.subject = some network) = [message] := by
      simp [here]
    rw [if_pos here, one]
    cases event : message.event with
    | none => simp [event]
    | some event' => simp [event]
  · have elsewhere : [message].filter (fun m => networkOf m.subject = some network) = [] := by
      simp [here]
    rw [if_neg here, elsewhere]
    rfl

variable {network}

theorem run_concat (messages : List NatsMessage) (message : NatsMessage) :
    run (messages ++ [message]) = (run messages).step message := Run.runFrom_append ..

/-- What the events of a network add to the counters of a part, over a whole run. -/
theorem run_weigh {which : Touch → Bool} {part : Part} {adds : Received → Nat}
    (own : ∀ t, which t = true → t.family.part = part) (other : part ≠ .pipeline)
    (added : ∀ net event, Touch.weigh which (observeEvent net event).2 = adds event)
    (messages : List NatsMessage) :
    Touch.weigh which ((run messages).on network) =
      ((received network messages).map adds).sum := by
  induction messages using List.reverseRecOn with
  | nil => rfl
  | append_singleton messages message ih =>
      rw [run_concat, on_step, Touch.weigh_append, ih, received_concat, List.map_append,
        List.sum_append]
      congr 1
      split
      · rw [weigh_handleMessage own other]
        cases message.event with
        | none => rfl
        | some event => exact (added _ event).trans (Nat.add_zero _).symm
      · rfl

/-- A capped label over a whole run: what has one, and how often each label is given. -/
theorem run_labels (network : String) {capped : Memory → Capped String}
    {text : Decoded.Handshake → String} {family : Family} {cap : Nat} (own : family.part = .handshakes)
    (start : capped .default = .new cap)
    (kept : ∀ net message, capped (handleMessage net message).1 =
      (capped net).run ((message.event.bind Received.handshake?).toList.map text))
    (added : ∀ net event hs value,
      Touch.weigh (fun t => t.family = family ∧ t.labels = [value])
          (observeHandshake (observePipeline net event).1 event hs).2 =
        if (capped net).label OTHER (text hs) = value then 1 else 0)
    (messages : List NatsMessage) :
    capped ((run messages).network network) =
        (Capped.new cap).run ((handshakes network messages).map text) ∧
      ∀ value, Touch.weigh (fun t => t.family = family ∧ t.labels = [value])
          ((run messages).on network) =
        (Capped.labels OTHER (.new cap) ((handshakes network messages).map text)).count value := by
  induction messages using List.reverseRecOn with
  | nil => exact ⟨start, fun _ => rfl⟩
  | append_singleton messages message ih =>
      obtain ⟨labelled, counted⟩ := ih
      have more : handshakes network (messages ++ [message]) = handshakes network messages ++
          if networkOf message.subject = some network then
            (message.event.bind Received.handshake?).toList
          else [] := by
        rw [handshakes, received_concat, List.filterMap_append]
        congr 1
        split
        · cases message.event with
          | none => rfl
          | some event => cases told : event.handshake? <;> simp [told]
        · rfl
      rw [run_concat, network_step, on_step, more]
      by_cases here : networkOf message.subject = some network
      · rw [if_pos here, if_pos here, if_pos here, kept, labelled, List.map_append]
        refine ⟨(Run.runFrom_append ..).symm, fun value => ?_⟩
        have chosen (t : Touch) (here : decide (t.family = family ∧ t.labels = [value]) = true) :
            t.family.part = .handshakes := (of_decide_eq_true here).1 ▸ own
        rw [Touch.weigh_append, counted, weigh_handleMessage chosen (by decide)]
        cases message.event with
        | none => simp
        | some event =>
            rw [Option.map_some, Option.getD_some, weigh_handshake _ _ chosen, Option.bind_some]
            cases event.handshake? with
            | none => simp
            | some hs =>
                rw [Option.map_some, Option.getD_some, added, labelled, Option.toList_some,
                  List.map_singleton, Capped.labels_concat, List.count_append, List.count_singleton]
                congr 1
                exact if_congr (by rw [beq_iff_eq]) rfl rfl
      · simp only [if_neg here, List.append_nil]
        exact ⟨labelled, counted⟩

omit [HostText] in
theorem total_eq (r : Registry) (network : String) (family : Family) {count : Nat}
    (weighed : Touch.weigh (fun t => t.family = family) (r.on network) = count) :
    r.total network family = .ofNat count := by rw [total, weighed]

/-- The counters of a network are those of its events: a handshake under its user agent and its
    protocol version, or under the label for the rest once too many others came before them, and no
    handshake, attempt, message of a session or gossiped address left out or counted twice. -/
theorem run_exact (messages : List NatsMessage) (network : String) :
    (∀ value, (run messages).counter network .handshakeUserAgentsTotal [value] = .ofNat
      (((agents network messages).map fun agent =>
        if agent ∈ Capped.firsts USER_AGENT_CAP (agents network messages) then agent
        else OTHER).count value)) ∧
    (∀ value, (run messages).counter network .handshakeProtocolVersionsTotal [value] = .ofNat
      (((versions network messages).map fun version =>
        if version ∈ Capped.firsts PROTOCOL_VERSION_CAP (versions network messages) then version
        else OTHER).count value)) ∧
    (∀ family, countsHandshakes family = true →
      (run messages).total network family = .ofNat (handshakes network messages).length) ∧
    (run messages).total network .connectionAttemptsTotal =
      .ofNat ((received network messages).map Received.attempts).sum ∧
    (run messages).total network .sessionMessagesTotal =
      .ofNat ((received network messages).map Received.sessionMessages).sum ∧
    (run messages).total network .addressEntriesTotal =
      .ofNat ((received network messages).map Received.addresses).sum := by
  refine ⟨fun value => ?_, fun value => ?_, fun family handshake => ?_, ?_, ?_, ?_⟩
  · have counted := (run_labels network rfl rfl
      (fun net message => (handleMessage_labels net message).1) weigh_agent messages).2 value
    rw [counter, counted, Capped.labels_new]
    rfl
  · have counted := (run_labels network rfl rfl
      (fun net message => (handleMessage_labels net message).2) weigh_version messages).2 value
    rw [counter, counted, Capped.labels_new]
    rfl
  · apply total_eq
    have own (t : Touch) (chosen : decide (t.family = family) = true) :
        t.family.part = .handshakes :=
      (own_family family t chosen).trans (countsHandshakes_part handshake)
    rw [run_weigh own (by decide) (fun net event => weigh_once net event handshake) messages]
    exact sum_toList_length Received.handshake? (received network messages)
  · exact total_eq _ network _ (run_weigh (own_family _) (by decide) weigh_attempts messages)
  · exact total_eq _ network _ (run_weigh (own_family _) (by decide) weigh_sessionMessages messages)
  · exact total_eq _ network _ (run_weigh (own_family _) (by decide) weigh_addresses messages)

end Registry

end Metrics

end P2PObserver
