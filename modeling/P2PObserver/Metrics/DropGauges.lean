import P2PObserver.Lib.Run
import P2PObserver.Metrics.Observe

/-! # The drop gauges

An event sets both gauges, and the end of the observer run before it then resets the gauge by kind:
the first event of a run is described by the first gauge and not by the second.
-/

namespace P2PObserver

namespace Metrics

variable {H : Type} [DecidableEq H]

/-- An event with the network its subject names. -/
abbrev Message (H : Type) := String × PeerEvent H

/-- The losses of each kind an event reports, none where it reports none. -/
def lost (event : PeerEvent H) : DroppedEvents := event.droppedByKind.getD fun _ => 0

/-! ## What is remembered -/

/-- What an announcement is remembered for. -/
structure Sight (H : Type) where
  blockHash : H
  height : Option Nat
  newToUs : Bool

def sight (event : PeerEvent H) : Option (Sight H) :=
  match event.event with
  | some (.blockAnnouncement announcement) =>
      some ⟨announcement.blockHash, announcement.height, announcement.newToUs⟩
  | _ => none

def NetworkState.saw (net : NetworkState H) (timestampMs : UInt64) (sight : Sight H) :
    NetworkState H :=
  let net := match sight.height with
    | some height =>
        if net.bestHeight.all (· < height) then { net with bestHeight := some height } else net
    | none => net
  if sight.newToUs then
    { net with blocks := net.blocks.record sight.blockHash timestampMs.toNat }
  else net

/-- What an event leaves remembered of its network. -/
def NetworkState.after (net : NetworkState H) (instanceId timestampMs : UInt64)
    (sight : Option (Sight H)) : NetworkState H :=
  let net := { net with instanceId := some instanceId }
  (sight.map (net.saw timestampMs)).getD net

theorem NetworkState.instanceId_saw (net : NetworkState H) (timestampMs : UInt64)
    (sight : Sight H) : (net.saw timestampMs sight).instanceId = net.instanceId := by
  unfold saw
  extract_lets seen
  have same : seen.instanceId = net.instanceId := by
    unfold seen
    split
    · split <;> rfl
    · rfl
  split <;> exact same

theorem NetworkState.instanceId_after (net : NetworkState H) (instanceId timestampMs : UInt64)
    (sight : Option (Sight H)) :
    (net.after instanceId timestampMs sight).instanceId = some instanceId := by
  cases sight with
  | none => rfl
  | some sight => exact instanceId_saw ..

namespace Tool

def step (t : Tool H) (message : Message H) : Tool H := t.observe message.1 message.2

/-- Both gauges of the network describe the event. -/
def Describes (t : Tool H) (message : Message H) : Prop :=
  t.gauges.observerDroppedEvents message.1 = message.2.droppedEvents.toNat ∧
    ∀ kind, t.gauges.observerDroppedEventsByKind message.1 kind = (lost message.2 kind).toNat

/-- The network's last event. -/
def lastOf (before : List (Message H)) (network : String) : Option (PeerEvent H) :=
  (before.reverse.find? (·.1 = network)).map (·.2)

/-- The event comes from another run of the observer than the network's last one. -/
def restarted (before : List (Message H)) (message : Message H) : Bool :=
  (lastOf before message.1).any fun last => last.instanceId ≠ message.2.instanceId

/-- The counts fit a gauge, the first event of a new run reports no losses, and an event without
    counts by kind comes after one of its run without losses, or first. -/
def Plain (before : List (Message H)) (message : Message H) : Prop :=
  message.2.droppedEvents.toNat < 2 ^ 63 ∧
    (restarted before message = true → ∀ kind, lost message.2 kind = 0) ∧
    (restarted before message = false → match message.2.droppedByKind with
      | some byKind => ∀ kind, (byKind kind).toNat < 2 ^ 63
      | none => ∀ last ∈ lastOf before message.1, ∀ kind, lost last kind = 0)

/-! ## One event -/

theorem asI64_eq_iff (count : UInt64) : asI64 count = count.toNat ↔ count.toNat < 2 ^ 63 := by
  rw [asI64, Int64.toInt, UInt64.toBitVec_toInt64, BitVec.toInt_eq_toNat_cond]
  have fits : count.toBitVec.toNat = count.toNat := rfl
  have below := count.toNat_lt
  rw [fits]
  split <;> omega

omit [DecidableEq H] in
theorem network_setNetwork (t : Tool H) (network other : String) (state : NetworkState H) :
    (t.setNetwork network state).network other =
      if other = network then state else t.network other := by
  unfold setNetwork Tool.network
  split
  · rename_i same
    rw [same, AList.lookup_insert]
    rfl
  · rename_i apart
    rw [AList.lookup_insert_ne apart]

omit [DecidableEq H] in
/-- Everything `observePipeline` changes. -/
theorem observePipeline_eq (t : Tool H) (network : String) (event : PeerEvent H) :
    t.observePipeline network event =
      let restarted := (t.network network).instanceId.any (· ≠ event.instanceId)
      { networks := t.networks.insert network
          { t.network network with instanceId := some event.instanceId }
        gauges :=
          { observerDroppedEvents := fun other =>
              if other = network then asI64 event.droppedEvents
              else t.gauges.observerDroppedEvents other
            observerDroppedEventsByKind := fun other =>
              if other = network then
                if restarted then fun _ => 0
                else match event.droppedByKind with
                  | some byKind => fun kind => asI64 (byKind kind)
                  | none => t.gauges.observerDroppedEventsByKind other
              else t.gauges.observerDroppedEventsByKind other
            observerRestartsTotal := fun other =>
              if other = network ∧ restarted then t.gauges.observerRestartsTotal other + 1
              else t.gauges.observerRestartsTotal other } } := by
  have known (gauges : Gauges) : Tool.network ⟨t.networks, gauges⟩ network = t.network network := rfl
  have zero : asI64 0 = 0 := rfl
  cases before : (t.network network).instanceId with
  | none =>
      cases counts : event.droppedByKind <;>
        simp [observePipeline, counts, setNetwork, observeDroppedByKind, known, before]
  | some previous =>
      by_cases same : previous = event.instanceId <;> cases counts : event.droppedByKind <;>
        simp [observePipeline, counts, setNetwork, observeDroppedByKind, known, before, same, zero]
      -- Set from the counts first, then to zero.
      funext other
      split <;> rfl

theorem network_observeBlockAnnouncement (t : Tool H) (network other : String)
    (timestampMs : UInt64) (announcement : BlockAnnouncement H) :
    (t.observeBlockAnnouncement network timestampMs announcement).network other =
      if other = network then
        (t.network other).saw timestampMs
          ⟨announcement.blockHash, announcement.height, announcement.newToUs⟩
      else t.network other := by
  unfold observeBlockAnnouncement NetworkState.saw
  extract_lets net seen
  split <;> rw [network_setNetwork] <;> split <;> subst_vars <;> rfl

theorem network_step (t : Tool H) (message : Message H) (network : String) :
    (t.step message).network network =
      if network = message.1 then
        (t.network network).after message.2.instanceId message.2.timestampMs (sight message.2)
      else t.network network := by
  have pipeline : (t.observePipeline message.1 message.2).network network =
      if network = message.1 then
        { t.network network with instanceId := some message.2.instanceId }
      else t.network network := by
    rw [observePipeline_eq]
    exact (network_setNetwork ..).trans (by split <;> subst_vars <;> rfl)
  simp only [step, observe, sight]
  cases message.2.event with
  | none => exact pipeline
  | some about =>
      cases about with
      | blockAnnouncement announcement =>
          rw [network_observeBlockAnnouncement, pipeline]
          split <;> rfl
      | _ => exact pipeline

theorem instanceId_step (t : Tool H) (message : Message H) (network : String) :
    ((t.step message).network network).instanceId =
      if network = message.1 then some message.2.instanceId else (t.network network).instanceId := by
  rw [network_step]
  split
  · rw [NetworkState.instanceId_after]
  · rfl

/-- The gauges change with the pipeline only. -/
theorem gauges_step (t : Tool H) (message : Message H) :
    (t.step message).gauges = (t.observePipeline message.1 message.2).gauges := by
  simp only [step, observe]
  split
  · simp only [observeBlockAnnouncement]
    split <;> rfl
  · rfl

theorem droppedEvents_step (t : Tool H) (message : Message H) :
    (t.step message).gauges.observerDroppedEvents message.1 = asI64 message.2.droppedEvents := by
  rw [gauges_step, observePipeline_eq]
  exact if_pos rfl

theorem byKind_step (t : Tool H) (message : Message H) (network : String) (kind : Kind) :
    (t.step message).gauges.observerDroppedEventsByKind network kind =
      if network = message.1 then
        if (t.network message.1).instanceId.any (· ≠ message.2.instanceId) then 0
        else match message.2.droppedByKind with
          | some byKind => asI64 (byKind kind)
          | none => t.gauges.observerDroppedEventsByKind network kind
      else t.gauges.observerDroppedEventsByKind network kind := by
  rw [gauges_step, observePipeline_eq]
  dsimp only
  split
  · split
    · rfl
    · cases message.2.droppedByKind <;> rfl
  · rfl

/-! ## Event after event -/

omit [DecidableEq H] in
theorem lastOf_concat (before : List (Message H)) (message : Message H) (network : String) :
    lastOf (before ++ [message]) network =
      if network = message.1 then some message.2 else lastOf before network := by
  unfold lastOf
  rw [List.reverse_append, List.reverse_singleton, List.singleton_append, List.find?_cons]
  by_cases own : network = message.1
  · simp [own]
  · have other : decide (message.1 = network) = false := decide_eq_false fun same => own same.symm
    rw [other, if_neg own]

/-- The run remembered of a network is that of its last event. -/
theorem run_instanceId (before : List (Message H)) (network : String) :
    ((Run.runFrom step new before).network network).instanceId =
      (lastOf before network).map (·.instanceId) := by
  induction before using List.reverseRecOn with
  | nil => rfl
  | append_singleton before message ih =>
      rw [Run.runFrom_append, Run.runFrom_cons, Run.runFrom_nil, instanceId_step, lastOf_concat, ih]
      split <;> rfl

/-- Where every event has been described, the gauges by kind are what the last event lost. -/
theorem run_byKind {before : List (Message H)}
    (described : ∀ front message, front ++ [message] <+: before →
      (Run.runFrom step new (front ++ [message])).Describes message) (network : String)
    (kind : Kind) :
    (Run.runFrom step new before).gauges.observerDroppedEventsByKind network kind =
      (lastOf before network).elim 0 fun last => (lost last kind).toNat := by
  induction before using List.reverseRecOn with
  | nil => rfl
  | append_singleton before message ih =>
      have here := described before message List.prefix_rfl
      have earlier := ih fun front x inside =>
        described front x (inside.trans (List.prefix_append ..))
      rw [lastOf_concat]
      by_cases own : network = message.1
      · rw [own, if_pos rfl]
        exact here.2 kind
      · rw [if_neg own, ← earlier, Run.runFrom_append, Run.runFrom_cons, Run.runFrom_nil,
          byKind_step, if_neg own]

/-- A message is described right after it, as all before it have been, exactly when the condition
    is met. -/
theorem describes_iff (before : List (Message H)) (message : Message H)
    (described : ∀ front message, front ++ [message] <+: before →
      (Run.runFrom step new (front ++ [message])).Describes message) :
    (Run.runFrom step new (before ++ [message])).Describes message ↔ Plain before message := by
  have shown := run_byKind described message.1
  have run : ((Run.runFrom step new before).network message.1).instanceId.any
      (· ≠ message.2.instanceId) = restarted before message := by
    rw [run_instanceId, restarted, Option.any_map]
  rw [Run.runFrom_append, Run.runFrom_cons, Run.runFrom_nil, Describes, droppedEvents_step,
    asI64_eq_iff, Plain]
  refine and_congr_right fun _ => ?_
  simp only [byKind_step, if_true, run, shown]
  cases restarted before message with
  | true =>
      simp only [if_true, forall_const, Bool.true_eq_false, false_imp_iff, and_true]
      refine forall_congr' fun kind => ?_
      rw [← UInt64.toNat_inj]
      have zero : (0 : UInt64).toNat = 0 := rfl
      omega
  | false =>
      cases counts : message.2.droppedByKind with
      | some byKind => simp [lost, counts, asI64_eq_iff]
      | none =>
          cases lastOf before message.1 with
          | none => simp [lost, counts]
          | some last => simp [lost, counts, ← UInt64.toNat_inj]

/-- Every event of a run is described by both gauges right after it exactly when each meets the
    condition. -/
theorem run_describes_iff (messages : List (Message H)) :
    (∀ before message, before ++ [message] <+: messages →
      (Run.runFrom step new (before ++ [message])).Describes message) ↔
      ∀ before message, before ++ [message] <+: messages → Plain before message :=
  Run.each_iff_history step describes_iff messages

/-! ## A restart that had losses -/

/-- The new run lost twelve announcements before its first event came through. -/
def restart : List (Message Nat) :=
  [("signet", event 7 0 none), ("signet", event 8 12 (some lost))]
where
  lost : DroppedEvents
    | .addressAnnouncement => 12
    | _ => 0
  event (instanceId droppedEvents : UInt64) (droppedByKind : Option DroppedEvents) :
      PeerEvent Nat :=
    { connectionId := 1
      timestampMs := 0
      peerAddr := .ipv4 ⟨[13, 4, 5, 6], rfl⟩ 38333
      userAgent := ""
      transportVersion := some 1
      droppedEvents := droppedEvents
      instanceId := instanceId
      droppedByKind := droppedByKind
      event := some (.feeFilter ⟨1000⟩) }

theorem restart_resets :
    ¬ ∀ (messages before : List (Message Nat)) (message : Message Nat),
      before ++ [message] <+: messages →
        (Run.runFrom step new (before ++ [message])).Describes message := by
  intro all
  have described := all restart [restart[0]] restart[1] List.prefix_rfl
  exact absurd (described.2 .addressAnnouncement) (by decide)

end Tool

end Metrics

end P2PObserver
