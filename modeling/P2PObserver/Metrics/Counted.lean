import P2PObserver.Metrics.Series

/-! # Every series is bounded, and exact

A label is one of a few words, or one of the first so many that peers sent. What the labels keep
apart is counted exactly, and what they do not is counted once.
-/

namespace P2PObserver

namespace Metrics

open ArchiveStats (enumLabel)

/-! ## The words -/

def Words.kinds : List String := observeDroppedByKind.Kinds

def Words.services : List String := "none" :: "all" :: (List.range 64).map serviceBit

def Words.nets : List String := ["ipv4", "ipv6", "onion", "i2p", "cjdns", OTHER]

def Words.heights : List String := ["known", "unknown"]

def EnumNames.labels (names : EnumNames) (start : String) : List String :=
  names.map fun name => enumLabel name start

/-- Each of some labels with each of others. -/
def pairs (first second : List String) : List (List String) :=
  first.flatMap fun label => second.map fun label' => [label, label']

/-- The labels that a series of a family can have but for those that peers choose. -/
def Family.words : Family → List (List String)
  | .eventsTotal | .eventBytesTotal => ("none" :: Words.kinds).map fun kind => [kind]
  | .observerDroppedEventsByKind => Words.kinds.map fun kind => [kind]
  | .connectionAttemptsTotal =>
      pairs ["disconnected"] (disconnectReason.labels "DISCONNECT_REASON_") ++
        pairs ["failed"] (failureReason.labels "FAILURE_REASON_") ++
        pairs ["our_fault"] (ourFaultReason.labels "OUR_FAULT_REASON_") ++ [["unknown", "unknown"]]
  | .connectionSetupSeconds => [["disconnected"], ["failed"], ["our_fault"], ["unknown"]]
  | .sessionMessagesTotal => (OTHER :: KNOWN).map fun command => [command]
  | .handshakesTotal => [["v1"], ["v2"], ["unknown"]]
  | .handshakeUserAgentsTotal | .handshakeProtocolVersionsTotal => [[OTHER]]
  | .handshakeServicesTotal | .addressEntryServicesTotal => Words.services.map fun bit => [bit]
  | .handshakeFeaturesTotal => [["relay"], ["sendaddrv2"], ["wtxid_relay"], ["addr_recv"]]
  | .blockAnnouncementsTotal | .blocksTotal | .blockPropagationSeconds =>
      pairs (announcementType.labels "ANNOUNCEMENT_TYPE_") Words.heights
  | .compactBlockProbesTotal => (probeStage.labels "PROBE_STAGE_").map fun stage => [stage]
  | .sendCmpctTotal => pairs ["high", "low"] ["1", "2", OTHER]
  | .addressAnnouncementsTotal => (addrMessage.labels "ADDR_MESSAGE_").map fun message => [message]
  | .addressEntriesTotal => Words.nets.map fun net => [net]
  | _ => [[]]

def Family.all : List Family :=
  [.eventsTotal, .eventBytesTotal, .undecodableEventsTotal, .eventDelaySeconds,
    .lastEventTimestampSeconds, .observerDroppedEvents, .observerDroppedEventsByKind,
    .observerRestartsTotal, .connectionAttemptsTotal, .connectionSetupSeconds,
    .sessionDurationSeconds, .sessionMessagesTotal, .unsolicitedPongsTotal, .silentSessionsTotal,
    .handshakesTotal, .handshakeUserAgentsTotal, .handshakeProtocolVersionsTotal,
    .handshakeServicesTotal, .handshakeFeaturesTotal, .handshakeClockSkewSeconds,
    .handshakeHeightDelta, .bestHeight, .pingRttSeconds, .pingTcpSrttSeconds,
    .pingTcpMinRttSeconds, .pingTcpRttvarSeconds, .pingTcpCwndSegments, .pingTcpRetransmits,
    .pingTcpDeliveryRateBytesPerSecond, .blockAnnouncementsTotal, .blocksTotal,
    .blockAnnouncementBatchSize, .blockPropagationSeconds, .compactBlockShortIds,
    .compactBlockPrefilledTxs, .compactBlockProbesTotal, .feeFiltersTotal, .feeFilterSatPerKvb,
    .sendCmpctTotal, .addressAnnouncementsTotal, .addressAnnouncementEntries,
    .addressEntriesTotal, .addressEntryServicesTotal, .addressEntryAgeSeconds,
    .unparsedAddressEntriesTotal, .rateLimitedAddressEntriesTotal,
    .solicitedAddressAnnouncementsTotal, .selfAnnouncementsTotal, .addressRateLimitTokens]

theorem Family.mem_all (family : Family) : family ∈ Family.all := by
  cases family <;> decide

/-- The series whose labels no peer chooses. -/
def fixed : List (Family × List String) :=
  Family.all.flatMap fun family => family.words.map fun labels => (family, labels)

/-! ## Labels are words -/

theorem fixed_length : fixed.length = 309 := by decide +kernel

theorem EnumNames.get_mem {names : EnumNames} (filled : names ≠ []) (raw : Int32) :
    names.get raw ∈ names := by
  have first : names.headD "" ∈ names := by
    cases names with
    | nil => exact absurd rfl filled
    | cons name names => exact List.mem_cons_self
  unfold EnumNames.get
  split
  · exact first
  · cases found : names[raw.toInt.toNat]? with
    | none => exact first
    | some name => exact List.mem_of_getElem? found

theorem EnumNames.label_mem (names : EnumNames) (filled : names ≠ []) (raw : Int32)
    (start : String) : enumLabel (names.get raw) start ∈ names.labels start :=
  List.mem_map_of_mem (EnumNames.get_mem filled raw)

theorem mem_pairs {first second : List String} {label label' : String} (here : label ∈ first)
    (there : label' ∈ second) : [label, label'] ∈ pairs first second :=
  List.mem_flatMap.mpr ⟨label, here, List.mem_map_of_mem there⟩

theorem serviceBits_words (services : UInt64) :
    ∀ bit ∈ serviceBits services, bit ∈ Words.services := by
  intro bit listed
  unfold serviceBits at listed
  split at listed
  · rw [List.mem_singleton.mp listed]
    exact List.mem_cons_self
  split at listed
  · rw [List.mem_singleton.mp listed]
    exact List.mem_cons_of_mem _ List.mem_cons_self
  · have sub : ((List.range 64).filter fun bit => services &&& (1 <<< UInt64.ofNat bit) ≠ 0).map
        serviceBit ⊆ (List.range 64).map serviceBit := (List.filter_sublist.map serviceBit).subset
    exact List.mem_cons_of_mem _ (List.mem_cons_of_mem _ (sub listed))

theorem command_words (raw : String) : command raw ∈ OTHER :: KNOWN := by
  unfold command
  split
  · rename_i known
    exact List.mem_cons_of_mem _ known
  · exact List.mem_cons_self

theorem userAgent_length (raw : String) : (userAgent raw).length ≤ USER_AGENT_MAX_CHARS := by
  unfold userAgent
  dsimp only
  split
  · decide
  · rw [String.length_ofList, List.length_take]
    exact Nat.min_le_left ..

theorem transport_words (version : Option UInt32) :
    [transport version] ∈ Family.words .handshakesTotal := by
  unfold transport
  split <;> decide

theorem addressNet_words [HostText] (addr : String) : addressNet addr ∈ Words.nets := by
  have v6 (ip : Bytes 16) : ipv6Net ip ∈ Words.nets := by
    unfold ipv6Net
    split <;> decide
  unfold addressNet
  split
  · decide
  split
  · decide
  split
  · decide
  split
  · split
    · exact v6 _
    · decide
  · split
    · decide
    · exact v6 _
    · decide

/-! ## Gathering -/

theorem sum_entry (held : HashMap String Nat) (label : String) :
    ((held.entry label (· + 1)).entries.map (·.2)).sum = (held.entries.map (·.2)).sum + 1 := by
  rw [HashMap.entry, AList.entries_insert]
  by_cases known : label ∈ held
  · obtain ⟨count, before, after, -, all, rest⟩ :=
      List.exists_of_kerase (AList.mem_keys.mpr known)
    have found : held.lookup label = some count := by
      rw [← HashMap.mem_entries_iff, all]
      simp
    rw [found, rest, all]
    simp only [Option.getD_some, List.map_cons, List.map_append, List.sum_cons, List.sum_append]
    omega
  · rw [List.kerase_of_notMem_keys (mt AList.mem_keys.mp known), AList.lookup_eq_none.mpr known]
    simp only [Option.getD_none, List.map_cons, List.sum_cons]
    change 0 + 1 + _ = _
    omega

theorem foldl_gather (labels : List String) : ∀ held : HashMap String Nat,
    ((labels.foldl (fun held label => held.entry label (· + 1)) held).entries.map (·.2)).sum =
      (held.entries.map (·.2)).sum + labels.length ∧
    ∀ count ∈ (labels.foldl (fun held label => held.entry label (· + 1)) held).entries,
      count.1 ∈ labels ∨ count.1 ∈ held := by
  induction labels with
  | nil =>
      intro held
      exact ⟨rfl, fun count listed => .inr (List.mem_keys_of_mem listed)⟩
  | cons label labels ih =>
      intro held
      obtain ⟨size, keys⟩ := ih (held.entry label (· + 1))
      rw [List.foldl_cons, size, sum_entry, List.length_cons]
      refine ⟨by omega, fun count listed => ?_⟩
      rcases keys count listed with later | now
      · exact .inl (List.mem_cons_of_mem _ later)
      · rcases (AList.mem_insert held).mp now with here | before
        · exact .inl (here ▸ List.mem_cons_self)
        · exact .inr before

/-- Gathering labels loses none of them and makes none up. -/
theorem gather_spec (labels : List String) :
    ((gather labels).entries.map (·.2)).sum = labels.length ∧
      ∀ count ∈ (gather labels).entries, count.1 ∈ labels := by
  obtain ⟨size, keys⟩ := foldl_gather labels ∅
  refine ⟨size.trans (Nat.zero_add _), fun count listed => ?_⟩
  exact (keys count listed).resolve_right (AList.notMem_empty count.1)

/-! ## Touches are bounded -/

/-- A touch whose labels no peer chooses. -/
def Touch.Plain (t : Touch) : Prop := t.labels ∈ t.family.words

instance (t : Touch) : Decidable t.Plain := inferInstanceAs (Decidable (_ ∈ _))

theorem words_of_mem_fixed {family : Family} {labels : List String}
    (listed : (family, labels) ∈ fixed) : labels ∈ family.words := by
  obtain ⟨family', -, made⟩ := List.mem_flatMap.mp listed
  obtain ⟨labels', words, same⟩ := List.mem_map.mp made
  obtain ⟨rfl, rfl⟩ := Prod.mk.inj same
  exact words

theorem Touch.Plain.mem_fixed {t : Touch} (plain : t.Plain) : (t.family, t.labels) ∈ fixed :=
  List.mem_flatMap.mpr ⟨t.family, t.family.mem_all, List.mem_map_of_mem plain⟩

theorem plain_if {c : Prop} [Decidable c] {touches : List Touch} (plain : ∀ t ∈ touches, t.Plain) :
    ∀ t ∈ if c then touches else [], t.Plain := by
  split
  · exact plain
  · nofun

theorem observePipeline_plain (net : Memory) (event : Received) :
    ∀ t ∈ (observePipeline net event).2, t.Plain := by
  unfold observePipeline
  dsimp only
  generalize event.droppedByKind.isSome = byKind
  generalize (net.instanceId.any fun previous => decide (previous ≠ event.instanceId)) = restarted
  cases byKind <;> cases restarted <;> decide

theorem observePing_plain (ping : Decoded.PingRtt) : ∀ t ∈ observePing ping, t.Plain := by
  unfold observePing
  cases ping.tcpStats with
  | none => decide
  | some tcp =>
      simp only [Option.map_some, Option.getD_some, observeTcp]
      generalize tcp.minRttUs.isSome = minRtt
      generalize tcp.deliveryRate.isSome = rate
      cases minRtt <;> cases rate <;> decide

theorem observeBlockAnnouncement_plain (net : Memory) (event : Received)
    (blk : Decoded.BlockAnnouncement) :
    ∀ t ∈ (observeBlockAnnouncement net event blk).2, t.Plain := by
  have atype := EnumNames.label_mem announcementType (by decide) blk.announcementType
    "ANNOUNCEMENT_TYPE_"
  have height : (if blk.height.isSome = true then "known" else "unknown") ∈ Words.heights := by
    split <;> decide
  have words := mem_pairs atype height
  simp only [observeBlockAnnouncement]
  generalize [enumLabel (announcementType.get blk.announcementType) "ANNOUNCEMENT_TYPE_",
    if blk.height.isSome = true then "known" else "unknown"] = labels at words
  split
  · simp only [List.forall_mem_append, List.forall_mem_cons]
    exact ⟨⟨⟨⟨words, by decide, nofun⟩, plain_if (by decide)⟩, plain_if (by decide)⟩, words, nofun⟩
  · simp only [List.forall_mem_append, List.forall_mem_cons]
    refine ⟨⟨⟨⟨words, by decide, nofun⟩, plain_if (by decide)⟩, plain_if (by decide)⟩, ?_⟩
    exact plain_if (List.forall_mem_cons.mpr ⟨words, nofun⟩)

theorem observeSession_plain (d : Decoded.Disconnected) :
    ∀ t ∈ observeSession d, t.Plain := by
  simp only [observeSession, List.forall_mem_append, List.forall_mem_map]
  refine ⟨⟨⟨⟨by decide, fun count _ => ?_⟩, plain_if ?_⟩, plain_if ?_⟩, plain_if (by decide)⟩
  · exact List.mem_map_of_mem (command_words count.1)
  · exact List.forall_mem_cons.mpr ⟨List.mem_map_of_mem List.mem_cons_self, nofun⟩
  · exact List.forall_mem_cons.mpr ⟨List.mem_singleton_self [], nofun⟩

theorem observeConnectionResult_plain (result : Option Decoded.Attempt) :
    ∀ t ∈ observeConnectionResult result, t.Plain := by
  have ended {outcome reason : String}
      (attempt : [outcome, reason] ∈ Family.words .connectionAttemptsTotal)
      (setup : [outcome] ∈ Family.words .connectionSetupSeconds) :
      ∀ t ∈ [Touch.inc .connectionAttemptsTotal [outcome, reason],
        .observe .connectionSetupSeconds [outcome]], t.Plain :=
    List.forall_mem_cons.mpr ⟨attempt, List.forall_mem_cons.mpr ⟨setup, nofun⟩⟩
  have here (outcome : String) : outcome ∈ [outcome] := List.mem_singleton_self outcome
  cases result with
  | none => exact ended (by decide) (by decide)
  | some attempt =>
      cases attempt with
      | disconnected d =>
          have reason := EnumNames.label_mem disconnectReason (by decide) d.reason
            "DISCONNECT_REASON_"
          refine List.forall_mem_append.mpr ⟨observeSession_plain d, ended ?_ (by decide)⟩
          exact List.mem_append_left _ (List.mem_append_left _
            (List.mem_append_left _ (mem_pairs (here "disconnected") reason)))
      | failed reason setupMs =>
          have reason := EnumNames.label_mem failureReason (by decide) reason
            "FAILURE_REASON_"
          refine ended ?_ (by decide)
          exact List.mem_append_left _ (List.mem_append_left _
            (List.mem_append_right _ (mem_pairs (here "failed") reason)))
      | ourFault reason setupMs =>
          have reason := EnumNames.label_mem ourFaultReason (by decide) reason
            "OUR_FAULT_REASON_"
          refine ended ?_ (by decide)
          exact List.mem_append_left _ (List.mem_append_right _
            (mem_pairs (here "our_fault") reason))

theorem observeAddressAnnouncement_plain [HostText] (event : Received)
    (ann : Decoded.AddressAnnouncement) :
    ∀ t ∈ observeAddressAnnouncement event ann, t.Plain := by
  have message := EnumNames.label_mem addrMessage (by decide) ann.message "ADDR_MESSAGE_"
  have unlabelled {family : Family} {amount : Nat} (words : family.words = [[]]) :
      ∀ t ∈ [Touch.incBy family [] amount], t.Plain := by
    refine List.forall_mem_cons.mpr ⟨?_, nofun⟩
    change [] ∈ family.words
    rw [words]
    exact List.mem_singleton_self []
  simp only [observeAddressAnnouncement, List.forall_mem_append, List.forall_mem_map,
    List.forall_mem_cons, and_assoc]
  refine ⟨List.mem_map_of_mem message, by decide, nofun, plain_if (unlabelled rfl),
    plain_if (unlabelled rfl), plain_if (by decide), by decide, nofun, plain_if (by decide),
    by decide, fun _ _ => by decide, fun count listed => ?_, fun count listed => ?_⟩
  · have label := (gather_spec _).2 count listed
    obtain ⟨addr, -, same⟩ := List.mem_map.mp label
    exact List.mem_map_of_mem (same ▸ addressNet_words addr)
  · have label := (gather_spec _).2 count listed
    obtain ⟨services, -, bit⟩ := List.mem_flatMap.mp label
    exact List.mem_map_of_mem (serviceBits_words services count.1 bit)

theorem observeSendCmpct_plain (sc : SendCmpct) : ∀ t ∈ observeSendCmpct sc, t.Plain := by
  unfold observeSendCmpct
  dsimp only
  split <;> split
  · decide
  · split <;> decide
  · decide
  · split <;> decide

/-- A touch with a label that a peer chose, which is one of those with a label of their own. -/
def Memory.Labelled (net : Memory) (t : Touch) : Prop :=
  ∃ value, t.labels = [value] ∧
    (t.family = .handshakeUserAgentsTotal ∧ value ∈ net.userAgents.seen ∨
      t.family = .handshakeProtocolVersionsTotal ∧ value ∈ net.protocolVersions.seen)

/-- What is remembered later of the labels given out. -/
structure Memory.Within (net later : Memory) : Prop where
  userAgents : net.userAgents.seen ⊆ later.userAgents.seen
  protocolVersions : net.protocolVersions.seen ⊆ later.protocolVersions.seen
  agentCap : later.userAgents.cap = net.userAgents.cap
  versionCap : later.protocolVersions.cap = net.protocolVersions.cap
  cut : ∀ value ∈ later.userAgents.seen, value ∈ net.userAgents.seen ∨
    value.length ≤ USER_AGENT_MAX_CHARS

theorem Memory.Within.of_same {net later : Memory} (userAgents : later.userAgents = net.userAgents)
    (protocolVersions : later.protocolVersions = net.protocolVersions) : net.Within later := by
  constructor
  case userAgents => rw [userAgents]
  case protocolVersions => rw [protocolVersions]
  case agentCap => rw [userAgents]
  case versionCap => rw [protocolVersions]
  case cut =>
    intro value seen
    exact .inl (userAgents ▸ seen)

theorem Memory.Within.refl (net : Memory) : net.Within net := .of_same rfl rfl

theorem Memory.Within.trans {net later last : Memory} (first : net.Within later)
    (second : later.Within last) : net.Within last where
  userAgents := first.userAgents.trans second.userAgents
  protocolVersions := first.protocolVersions.trans second.protocolVersions
  agentCap := second.agentCap.trans first.agentCap
  versionCap := second.versionCap.trans first.versionCap
  cut value seen := (second.cut value seen).elim (first.cut value) .inr

theorem Memory.Labelled.mono {net later : Memory} {t : Touch} (labelled : net.Labelled t)
    (within : net.Within later) : later.Labelled t := by
  obtain ⟨value, labels, ⟨family, seen⟩ | ⟨family, seen⟩⟩ := labelled
  · exact ⟨value, labels, .inl ⟨family, within.userAgents seen⟩⟩
  · exact ⟨value, labels, .inr ⟨family, within.protocolVersions seen⟩⟩

/-- Every touch is of a series there is room for, in what is remembered after it. -/
def Bounded (net : Memory) (observed : Observed) : Prop :=
  net.Within observed.1 ∧ ∀ t ∈ observed.2, t.Plain ∨ observed.1.Labelled t

theorem Bounded.of_plain {net : Memory} {observed : Observed} (within : net.Within observed.1)
    (plain : ∀ t ∈ observed.2, t.Plain) : Bounded net observed :=
  ⟨within, fun t touched => .inl (plain t touched)⟩

theorem Bounded.after {net : Memory} {first second : Observed} (one : Bounded net first)
    (two : Bounded first.1 second) : Bounded net (second.1, first.2 ++ second.2) := by
  refine ⟨one.1.trans two.1, ?_⟩
  rw [List.forall_mem_append]
  exact ⟨fun t touched => (one.2 t touched).imp_right (·.mono two.1), two.2⟩

theorem observeHandshake_bounded (net : Memory) (event : Received) (hs : Decoded.Handshake) :
    Bounded net (observeHandshake net event hs) := by
  refine ⟨⟨net.userAgents.seen_subset _, net.protocolVersions.seen_subset _,
    net.userAgents.next_cap _, net.protocolVersions.next_cap _, fun value seen => ?_⟩, ?_⟩
  · rcases Capped.mem_next seen with before | rfl
    · exact .inl before
    · exact .inr (userAgent_length hs.userAgent)
  have agent : [net.userAgents.label OTHER (userAgent hs.userAgent)] ∈
        Family.words .handshakeUserAgentsTotal ∨
      net.userAgents.label OTHER (userAgent hs.userAgent) ∈
        (net.userAgents.next (userAgent hs.userAgent)).seen := by
    unfold Capped.label
    split
    · rename_i seen
      exact .inr seen
    · exact .inl (List.mem_singleton_self _)
  have version : [net.protocolVersions.label OTHER (toString hs.protocolVersion)] ∈
        Family.words .handshakeProtocolVersionsTotal ∨
      net.protocolVersions.label OTHER (toString hs.protocolVersion) ∈
        (net.protocolVersions.next (toString hs.protocolVersion)).seen := by
    unfold Capped.label
    split
    · rename_i seen
      exact .inr seen
    · exact .inl (List.mem_singleton_self _)
  have delta : ∀ t ∈ (if net.bestHeight.isSome then
      [Touch.observe .handshakeHeightDelta []] else []), t.Plain := plain_if (by decide)
  simp only [observeHandshake, List.forall_mem_append, List.forall_mem_cons, List.forall_mem_map,
    and_assoc]
  refine ⟨.inl (transport_words _), agent.imp_right fun seen => ⟨_, rfl, .inl ⟨rfl, seen⟩⟩,
    version.imp_right fun seen => ⟨_, rfl, .inr ⟨rfl, seen⟩⟩, nofun,
    fun bit listed => .inl (List.mem_map_of_mem (serviceBits_words _ bit listed)),
    fun feature present => .inl ?_, .inl (by decide), nofun,
    fun t touched => .inl (delta t touched)⟩
  have listed := (List.filter_sublist.subset present : feature ∈ [_, _, _, _])
  have words : [feature.1] ∈ Family.words .handshakeFeaturesTotal := by
    simp only [List.mem_cons, List.not_mem_nil, or_false] at listed
    rcases listed with rfl | rfl | rfl | rfl <;> dsimp only <;> decide
  exact words

theorem observeBlockAnnouncement_within (net : Memory) (event : Received)
    (blk : Decoded.BlockAnnouncement) : net.Within (observeBlockAnnouncement net event blk).1 := by
  unfold observeBlockAnnouncement
  dsimp only
  cases blk.height.filter fun height => net.bestHeight.all fun best => decide (best < height) <;>
    split <;> exact .of_same rfl rfl

theorem observeEvent_bounded [HostText] (net : Memory) (event : Received) :
    Bounded net (observeEvent net event) := by
  unfold observeEvent
  split
  · exact observeHandshake_bounded net event _
  · exact .of_plain (.refl net) (observePing_plain _)
  · exact .of_plain (observeBlockAnnouncement_within ..)
      (observeBlockAnnouncement_plain net event _)
  · exact .of_plain (.refl net) (observeConnectionResult_plain _)
  · exact .of_plain (.refl net) (observeAddressAnnouncement_plain event _)
  · rename_i probe _
    have stage := EnumNames.label_mem probeStage (by decide) probe.stage "PROBE_STAGE_"
    refine .of_plain (.refl net) (List.forall_mem_cons.mpr ⟨?_, nofun⟩)
    exact List.mem_map_of_mem stage
  · exact .of_plain (.refl net) (by dsimp only; decide)
  · exact .of_plain (.refl net) (observeSendCmpct_plain _)
  · exact .of_plain (.refl net) nofun

theorem kindOf_words (event : Option Decoded.Event) :
    [kindOf event] ∈ Family.words .eventsTotal ∧
      [kindOf event] ∈ Family.words .eventBytesTotal := by
  unfold kindOf
  split <;> decide

theorem handleMessage_bounded [HostText] (net : Memory) (message : NatsMessage) :
    Bounded net (handleMessage net message) := by
  unfold handleMessage
  split
  · exact .of_plain (.refl net) (by dsimp only; decide)
  · rename_i event _
    have pipeline : Bounded net (observePipeline net event) :=
      .of_plain (.of_same rfl rfl) (observePipeline_plain net event)
    have whole := pipeline.after (observeEvent_bounded _ event)
    have kind := kindOf_words event.event
    refine ⟨whole.1, ?_⟩
    simp only [List.forall_mem_cons]
    exact ⟨.inl kind.1, .inl kind.2, whole.2⟩

/-! ## Runs -/

namespace Registry

variable [HostText] (network : String)

/-- Every series of the network is one there is room for. -/
structure Roomy (r : Registry) : Prop where
  touched : ∀ t ∈ r.touches, t.1 = network → t.2.Plain ∨ (r.network network).Labelled t.2
  agentCap : (r.network network).userAgents.cap = USER_AGENT_CAP
  versionCap : (r.network network).protocolVersions.cap = PROTOCOL_VERSION_CAP
  cut : ∀ value ∈ (r.network network).userAgents.seen, value.length ≤ USER_AGENT_MAX_CHARS

variable {network}

omit [HostText] in
theorem network_insert (r : Registry) (other : String) (net : Memory)
    (touches : List (String × Touch)) :
    (⟨r.networks.insert other net, touches⟩ : Registry).network network =
      if network = other then net else r.network network := by
  unfold Registry.network
  by_cases here : network = other
  · rw [if_pos here, here, AList.lookup_insert]
    rfl
  · rw [if_neg here, AList.lookup_insert_ne here]

theorem Roomy.step {r : Registry} (roomy : r.Roomy network) (message : NatsMessage) :
    (r.step message).Roomy network := by
  unfold Registry.step
  cases networkOf message.subject with
  | none => exact roomy
  | some other =>
      obtain ⟨grown, observed⟩ := handleMessage_bounded (r.network other) message
      dsimp only
      generalize handleMessage (r.network other) message = after at *
      by_cases here : network = other
      · subst here
        constructor
        · intro t listed same
          rw [network_insert, if_pos rfl]
          rcases List.mem_append.mp listed with before | now
          · exact (roomy.touched t before same).imp_right (·.mono grown)
          · obtain ⟨t, touched, rfl⟩ := List.mem_map.mp now
            exact observed t touched
        · rw [network_insert, if_pos rfl]
          exact grown.agentCap.trans roomy.agentCap
        · rw [network_insert, if_pos rfl]
          exact grown.versionCap.trans roomy.versionCap
        · rw [network_insert, if_pos rfl]
          exact fun value seen => (grown.cut value seen).elim (roomy.cut value) id
      · constructor
        · intro t listed same
          rw [network_insert, if_neg here]
          rcases List.mem_append.mp listed with before | now
          · exact roomy.touched t before same
          · obtain ⟨t, touched, rfl⟩ := List.mem_map.mp now
            exact absurd same.symm here
        · rw [network_insert, if_neg here]
          exact roomy.agentCap
        · rw [network_insert, if_neg here]
          exact roomy.versionCap
        · rw [network_insert, if_neg here]
          exact roomy.cut

theorem run_roomy (network : String) (messages : List NatsMessage) : (run messages).Roomy network := by
  have start : new.Roomy network := ⟨nofun, rfl, rfl, nofun⟩
  exact Run.runFrom_preserves (P := fun r => r.Roomy network) step
    (fun r message roomy => roomy.step message) start messages

omit [HostText] in
theorem Roomy.mem_series {r : Registry} (roomy : r.Roomy network)
    {labels : Family × List String} (listed : labels ∈ r.series network) :
    labels ∈ fixed ∨ ∃ value, labels.2 = [value] ∧
      (labels.1 = .handshakeUserAgentsTotal ∧ value ∈ (r.network network).userAgents.seen ∨
        labels.1 = .handshakeProtocolVersionsTotal ∧
          value ∈ (r.network network).protocolVersions.seen) := by
  obtain ⟨t, touched, rfl⟩ := List.mem_map.mp (List.mem_toFinset.mp listed)
  obtain ⟨there, here⟩ := List.mem_filter.mp touched
  exact (roomy.touched t there (of_decide_eq_true here)).imp_left (·.mem_fixed)

/-- However many messages come in and whatever peers put into them, a network has no more series
    than the labels no peer chooses allow for and its user agents and protocol versions have room
    for, and no user agent is longer than its cut. -/
theorem run_series_bounded (messages : List NatsMessage) (network : String) :
    ((run messages).series network).card ≤ 309 + USER_AGENT_CAP + PROTOCOL_VERSION_CAP ∧
      ∀ value, (.handshakeUserAgentsTotal, [value]) ∈ (run messages).series network →
        value.length ≤ USER_AGENT_MAX_CHARS := by
  have roomy := run_roomy network messages
  generalize run messages = r at roomy
  constructor
  · let agents : Finset (Family × List String) :=
      (r.network network).userAgents.seen.image fun value => (.handshakeUserAgentsTotal, [value])
    let versions : Finset (Family × List String) :=
      (r.network network).protocolVersions.seen.image
        fun value => (.handshakeProtocolVersionsTotal, [value])
    have inside : r.series network ⊆ fixed.toFinset ∪ agents ∪ versions := by
      intro labels listed
      rw [Finset.mem_union, Finset.mem_union, List.mem_toFinset]
      rcases roomy.mem_series listed with plain | ⟨value, own, ⟨family, seen⟩ | ⟨family, seen⟩⟩
      · exact .inl (.inl plain)
      · exact .inl (.inr (Finset.mem_image.mpr ⟨value, seen, Prod.ext family.symm own.symm⟩))
      · exact .inr (Finset.mem_image.mpr ⟨value, seen, Prod.ext family.symm own.symm⟩)
    have plain : fixed.toFinset.card ≤ 309 := (List.toFinset_card_le fixed).trans fixed_length.le
    have agentRoom : agents.card ≤ USER_AGENT_CAP := by
      have room := (r.network network).userAgents.within
      rw [roomy.agentCap] at room
      exact Finset.card_image_le.trans room
    have versionRoom : versions.card ≤ PROTOCOL_VERSION_CAP := by
      have room := (r.network network).protocolVersions.within
      rw [roomy.versionCap] at room
      exact Finset.card_image_le.trans room
    calc (r.series network).card ≤ (fixed.toFinset ∪ agents ∪ versions).card :=
          Finset.card_le_card inside
      _ ≤ fixed.toFinset.card + agents.card + versions.card :=
          (Finset.card_union_le ..).trans (Nat.add_le_add_right (Finset.card_union_le ..) _)
      _ ≤ 309 + USER_AGENT_CAP + PROTOCOL_VERSION_CAP := by omega
  · intro value listed
    rcases roomy.mem_series listed with plain | ⟨value', own, ⟨family, seen⟩ | ⟨family, seen⟩⟩
    · rw [List.singleton_inj.mp (List.mem_singleton.mp (words_of_mem_fixed plain))]
      decide
    · rw [List.singleton_inj.mp own]
      exact roomy.cut value' seen
    · cases family

end Registry

end Metrics

end P2PObserver
