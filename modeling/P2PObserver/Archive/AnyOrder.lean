import P2PObserver.Archive.Stats

/-! # The order of the events does not show

What an event adds is read off the event alone, and any two additions commute. The report sorts by
orders that tell the rows of a table apart before it cuts the table to its top rows.
-/

namespace P2PObserver.ArchiveStats

/-! ## What an event adds -/

/-- What can happen to a host's row. -/
inductive Host.Change : (Host → Host) → Prop
  | handshake (userAgent : String) : Change (Host.handshake userAgent)
  | ended (d : Disconnected) : Change (Host.ended d)
  | failed : Change fun h => { h with failedAttempts := h.failedAttempts + 1 }
  | unplaced : Change fun h => { h with unplaced := h.unplaced + 1 }
  | rateLimited (count : Nat) : Change fun h => { h with rateLimited := h.rateLimited + count }

theorem Host.Change.comm {change change' : Host → Host} (first : Change change)
    (second : Change change') (h : Host) : change (change' h) = change' (change h) := by
  cases first <;> cases second <;> try rfl
  case handshake.handshake ua ua' =>
    have agents : (h.userAgents.entry ua' (· + 1)).entry ua (· + 1) =
        (h.userAgents.entry ua (· + 1)).entry ua' (· + 1) :=
      BTreeMap.entry_comm (fun _ => rfl) ..
    simp only [Host.handshake, agents]
  case ended.ended d d' =>
    simp only [Host.ended]
    congr 1 <;> grind
  case rateLimited.rateLimited k k' => simp only [Nat.add_right_comm]

/-- What an event adds beyond its time and where it comes from. -/
structure Added where
  host : Option (Host → Host) := none
  userAgent : Option String := none
  sessionEnds : List String := []
  failures : List String := []
  ourFaults : Nat := 0
  /-- The block and whether it has a height. -/
  block : Option (String × Bool) := none
  handshakeServices : List UInt64 := []
  gossipServices : List UInt64 := []

namespace Added

def of : Option Event → Added
  | some (.handshake userAgent services) =>
      { host := some (Host.handshake userAgent)
        userAgent := some userAgent
        handshakeServices := [services] }
  | some (.connectionResult (some (.disconnected d))) =>
      { host := some (Host.ended d)
        sessionEnds := [enumLabel (disconnectReasonName d.getReason) "DISCONNECT_REASON_"] }
  | some (.connectionResult (some (.failed reason))) =>
      { host := some fun h => { h with failedAttempts := h.failedAttempts + 1 }
        failures := [enumLabel (failureReasonName (failureReason reason)) "FAILURE_REASON_"] }
  | some (.connectionResult (some .ourFault)) => { ourFaults := 1 }
  | some (.blockAnnouncement blockHash height) =>
      { host := if height.isNone then some fun h => { h with unplaced := h.unplaced + 1 } else none
        block := some (blockHash, height.isSome) }
  | some (.addressAnnouncement rateLimited addresses) =>
      { host := some fun h => { h with rateLimited := h.rateLimited + rateLimited }
        gossipServices := addresses }
  | some (.connectionResult none) | some .pingRtt | some .compactBlockProbe | some .feeFilter
  | some .sendCmpct | none => {}

theorem host_change {event : Option Event} {change : Host → Host}
    (added : (of event).host = some change) : Host.Change change := by
  rcases event with _ | event
  · cases added
  cases event with
  | handshake ua services =>
      cases added
      exact .handshake ua
  | connectionResult result =>
      rcases result with _ | d | reason | _
      · cases added
      · cases added
        exact .ended d
      · cases added
        exact .failed
      · cases added
  | blockAnnouncement hash height =>
      cases height with
      | none =>
          cases added
          exact .unplaced
      | some height => cases added
  | addressAnnouncement limited addresses =>
      cases added
      exact .rateLimited limited
  | pingRtt | compactBlockProbe | feeFilter | sendCmpct => cases added

end Added

/-- The bits of one field, none of them for a field with every bit set. -/
def ServiceBits.setBits (services : UInt64) : List Nat :=
  if services = 0xffffffffffffffff then []
  else (List.range 64).filter fun bit => services.toNat.testBit bit

theorem ServiceBits.observe_eq (b : ServiceBits) (services : UInt64) :
    b.observe services =
      { fields := b.fields + 1
        allOnes := b.allOnes + if services = 0xffffffffffffffff then 1 else 0
        bits := b.bits.countAll (setBits services) } := by
  unfold observe setBits
  split <;> rfl

theorem ServiceBits.observe_comm (b : ServiceBits) (services services' : UInt64) :
    (b.observe services).observe services' = (b.observe services').observe services := by
  have bits := b.bits.countAll_comm (setBits services) (setBits services')
  simp only [observe_eq, bits, Nat.add_right_comm]

namespace Stats

/-- Everything an observed event changes. -/
theorem observe_eq (s : Stats) (e : PeerEvent) :
    let added := Added.of e.event
    let host := hostOf e.peerAddr
    s.observe e =
      { network := s.network
        events := s.events + 1
        firstMs := some (s.firstMs.elim e.timestampMs fun t => min t e.timestampMs)
        lastMs := some (s.lastMs.elim e.timestampMs fun t => max t e.timestampMs)
        instances := insert e.instanceId s.instances
        dropped := s.dropped.entry e.instanceId fun dropped => max dropped e.droppedEvents
        hosts := s.hosts.entryAny (added.host.map fun change => (host, change))
        hostsByUserAgent :=
          s.hostsByUserAgent.entryAny (added.userAgent.map fun ua => (ua, insert host))
        handshakesByUserAgent :=
          s.handshakesByUserAgent.entryAny (added.userAgent.map fun ua => (ua, (· + 1)))
        sessionEnds := s.sessionEnds.countAll added.sessionEnds
        failures := s.failures.countAll added.failures
        ourFaults := s.ourFaults + added.ourFaults
        blocks := s.blocks.entryAny (added.block.map fun b => (b.1, fun placed => placed || b.2))
        announcements := s.announcements + added.block.isSome.toNat
        handshakeServices := added.handshakeServices.foldl ServiceBits.observe s.handshakeServices
        gossipServices := added.gossipServices.foldl ServiceBits.observe s.gossipServices } := by
  obtain ⟨time, addr, lost, run, event⟩ := e
  rcases event with _ | event
  · rfl
  cases event with
  | connectionResult result => rcases result with _ | d | reason | _ <;> rfl
  | blockAnnouncement hash height => cases height <;> rfl
  | _ => rfl

/-! ## Any order of the events -/

/-- The same statistics, each hash map iterating in an order of its own. -/
structure Agree (s s' : Stats) : Prop where
  network : s.network = s'.network
  events : s.events = s'.events
  firstMs : s.firstMs = s'.firstMs
  lastMs : s.lastMs = s'.lastMs
  instances : s.instances = s'.instances
  dropped : s.dropped.held = s'.dropped.held
  hosts : s.hosts.held = s'.hosts.held
  hostsByUserAgent : s.hostsByUserAgent.held = s'.hostsByUserAgent.held
  handshakesByUserAgent : s.handshakesByUserAgent.held = s'.handshakesByUserAgent.held
  sessionEnds : s.sessionEnds = s'.sessionEnds
  failures : s.failures = s'.failures
  ourFaults : s.ourFaults = s'.ourFaults
  blocks : s.blocks.held = s'.blocks.held
  announcements : s.announcements = s'.announcements
  handshakeServices : s.handshakeServices = s'.handshakeServices
  gossipServices : s.gossipServices = s'.gossipServices

theorem Agree.refl (s : Stats) : s.Agree s :=
  ⟨rfl, rfl, rfl, rfl, rfl, rfl, rfl, rfl, rfl, rfl, rfl, rfl, rfl, rfl, rfl, rfl⟩

/-- A hash map that each event updates at one key at most. -/
theorem held_perm {K V : Type} [DecidableEq K] [Inhabited V] (get : Stats → HashMap K V)
    (update : PeerEvent → Option (K × (V → V)))
    (carries : ∀ s e, get (s.observe e) = (get s).entryAny (update e))
    (swap : ∀ e e', ∀ u ∈ update e, ∀ u' ∈ update e', ∀ v, u.2 (u'.2 v) = u'.2 (u.2 v))
    {events events' : List PeerEvent} (perm : events.Perm events') (s : Stats) :
    (get (events.foldl observe s)).held = (get (events'.foldl observe s)).held := by
  apply foldl_perm (fun s => (get s).held) (fun held e => bumpAny held (update e)) _ _ perm s
  · intro s e
    rw [carries, HashMap.held_entryAny]
  · intro held e e'
    exact bumpAny_comm (swap e e') held

theorem agree_of_perm {events events' : List PeerEvent} (perm : events.Perm events') (s : Stats) :
    Agree (events.foldl observe s) (events'.foldl observe s) where
  network := foldl_perm Stats.network (fun network _ => network)
    (fun s e => by rw [observe_eq]) (fun _ _ _ => rfl) perm s
  events := foldl_perm Stats.events (fun events _ => events + 1)
    (fun s e => by rw [observe_eq]) (fun _ _ _ => rfl) perm s
  firstMs := foldl_perm Stats.firstMs
    (fun first e => some (first.elim e.timestampMs fun t => min t e.timestampMs))
    (fun s e => by rw [observe_eq]) (fun first e e' => by cases first <;> simp <;> omega) perm s
  lastMs := foldl_perm Stats.lastMs
    (fun last e => some (last.elim e.timestampMs fun t => max t e.timestampMs))
    (fun s e => by rw [observe_eq]) (fun last e e' => by cases last <;> simp <;> omega) perm s
  instances := foldl_perm Stats.instances (fun instances e => insert e.instanceId instances)
    (fun s e => by rw [observe_eq]) (fun _ _ _ => Finset.insert_comm ..) perm s
  dropped := held_perm Stats.dropped
    (fun e => some (e.instanceId, fun dropped => max dropped e.droppedEvents))
    (fun s e => by rw [observe_eq]; rfl)
    (by
      rintro e e' u ⟨⟩ u' ⟨⟩ v
      exact max_right_comm ..) perm s
  hosts := held_perm Stats.hosts
    (fun e => (Added.of e.event).host.map fun change => (hostOf e.peerAddr, change))
    (fun s e => by rw [observe_eq])
    (by
      intro e e' u first u' second v
      obtain ⟨change, added, rfl⟩ := Option.map_eq_some_iff.mp first
      obtain ⟨change', added', rfl⟩ := Option.map_eq_some_iff.mp second
      exact (Added.host_change added).comm (Added.host_change added') v) perm s
  hostsByUserAgent := held_perm Stats.hostsByUserAgent
    (fun e => (Added.of e.event).userAgent.map fun ua => (ua, insert (hostOf e.peerAddr)))
    (fun s e => by rw [observe_eq])
    (by
      intro e e' u first u' second v
      obtain ⟨ua, added, rfl⟩ := Option.map_eq_some_iff.mp first
      obtain ⟨ua', added', rfl⟩ := Option.map_eq_some_iff.mp second
      exact Finset.insert_comm ..) perm s
  handshakesByUserAgent := held_perm Stats.handshakesByUserAgent
    (fun e => (Added.of e.event).userAgent.map fun ua => (ua, (· + 1)))
    (fun s e => by rw [observe_eq])
    (by
      intro e e' u first u' second v
      obtain ⟨ua, added, rfl⟩ := Option.map_eq_some_iff.mp first
      obtain ⟨ua', added', rfl⟩ := Option.map_eq_some_iff.mp second
      rfl) perm s
  sessionEnds := foldl_perm Stats.sessionEnds
    (fun ends e => ends.countAll (Added.of e.event).sessionEnds)
    (fun s e => by rw [observe_eq]) (fun _ _ _ => BTreeMap.countAll_comm ..) perm s
  failures := foldl_perm Stats.failures
    (fun failures e => failures.countAll (Added.of e.event).failures)
    (fun s e => by rw [observe_eq]) (fun _ _ _ => BTreeMap.countAll_comm ..) perm s
  ourFaults := foldl_perm Stats.ourFaults (fun faults e => faults + (Added.of e.event).ourFaults)
    (fun s e => by rw [observe_eq]) (fun _ _ _ => Nat.add_right_comm ..) perm s
  blocks := held_perm Stats.blocks
    (fun e => (Added.of e.event).block.map fun b => (b.1, fun placed => placed || b.2))
    (fun s e => by rw [observe_eq])
    (by
      intro e e' u first u' second v
      obtain ⟨b, added, rfl⟩ := Option.map_eq_some_iff.mp first
      obtain ⟨b', added', rfl⟩ := Option.map_eq_some_iff.mp second
      exact Bool.or_right_comm ..) perm s
  announcements := foldl_perm Stats.announcements
    (fun count e => count + (Added.of e.event).block.isSome.toNat)
    (fun s e => by rw [observe_eq]) (fun _ _ _ => Nat.add_right_comm ..) perm s
  handshakeServices := foldl_perm Stats.handshakeServices
    (fun bits e => (Added.of e.event).handshakeServices.foldl ServiceBits.observe bits)
    (fun s e => by rw [observe_eq])
    (fun bits e e' => foldl_comm ServiceBits.observe_comm _ _ bits) perm s
  gossipServices := foldl_perm Stats.gossipServices
    (fun bits e => (Added.of e.event).gossipServices.foldl ServiceBits.observe bits)
    (fun s e => by rw [observe_eq])
    (fun bits e e' => foldl_comm ServiceBits.observe_comm _ _ bits) perm s

/-! ## Any iteration order -/

theorem rank_injective {count count' : Nat} {name name' : String}
    (same : rank count name = rank count' name') : name = name' :=
  congrArg Prod.snd (toLex_inj.mp same)

/-- The rows of a table, sorted by a count and the key. -/
theorem sorted_congr {V : Type} {m m' : HashMap String V} (count : V → Nat)
    (same : m.held = m'.held) :
    (m.sortedBy fun e => rank (count e.2) e.1) = m'.sortedBy fun e => rank (count e.2) e.1 :=
  HashMap.sortedBy_congr (congrFun same) fun _ _ => rank_injective

theorem sum_congr {K V : Type} [DecidableEq K] {m m' : HashMap K V} (count : V → Nat)
    (same : m.held = m'.held) : (m.values.map count).sum = (m'.values.map count).sum :=
  ((HashMap.values_perm same).map count).sum_nat

theorem zeros_perm {blocks blocks' : List (Sigma fun _ : String => Bool)}
    (perm : blocks.Perm blocks') : zeros blocks = zeros blocks' := by
  apply perm.foldl_eq' (fun b _ b' _ zeros => _)
  intro b _ b' _ zeros
  apply BTreeMap.entry_comm
  grind

variable [StatsText] {s s' : Stats} (agree : s.Agree s')
include agree

theorem coverage_agree (out : String) : s.coverage out = s'.coverage out := by
  have handshook := ((HashMap.values_perm agree.hosts).filter fun h => 0 < h.handshakes).length_eq
  have dropped := (HashMap.values_perm agree.dropped).sum_nat
  simp only [coverage, agree.network, agree.events, agree.firstMs, agree.lastMs, agree.instances,
    agree.announcements, HashMap.size_congr agree.hosts, HashMap.size_congr agree.blocks,
    sum_congr Host.sessions agree.hosts, handshook, dropped]

theorem sessions_agree (out : String) : s.sessions out = s'.sessions out := by
  simp only [sessions, agree.sessionEnds, agree.failures, agree.ourFaults,
    sum_congr Host.silent agree.hosts]

omit [StatsText] in
theorem hostTables_agree (out : String) (top : Nat) :
    s.hostTables out top = s'.hostTables out top := by
  have unplaced := HashMap.held_retain (fun _ h => 0 < h.unplaced) agree.hosts
  simp only [hostTables, sorted_congr Host.sessions agree.hosts, HashMap.size_congr unplaced,
    sorted_congr Host.unplaced unplaced]

omit [StatsText] in
theorem userAgents_agree (out : String) (top : Nat) :
    s.userAgents out top = s'.userAgents out top := by
  have handshakes (ua : String) :
      s.handshakesByUserAgent.lookup ua = s'.handshakesByUserAgent.lookup ua :=
    congrFun agree.handshakesByUserAgent ua
  simp only [userAgents, sorted_congr Finset.card agree.hostsByUserAgent, handshakes]

omit [StatsText] in
theorem blockTable_agree (out : String) : s.blockTable out = s'.blockTable out := by
  simp only [blockTable, zeros_perm (HashMap.perm_of_held agree.blocks)]

theorem services_agree (out : String) : s.services out = s'.services out := by
  simp only [services, agree.handshakeServices, agree.gossipServices]

theorem report_agree (top : Nat) : s.report top = s'.report top := by
  simp only [report, coverage_agree agree, sessions_agree agree, hostTables_agree agree,
    userAgents_agree agree, blockTable_agree agree, services_agree agree]

end Stats

/-! ## Any files -/

/-- An archive that reads to its end. -/
def opened (file : ArchiveHeader × List PeerEvent) : Except ReadError Archive :=
  .ok ⟨file.1, file.2.map .ok⟩

theorem foldlM_observe (events : List PeerEvent) (s : Stats) :
    (events.map Except.ok).foldlM (fun (s : Stats) (event : Except ReadError PeerEvent) => do
      return s.observe (← event)) s = .ok (events.foldl Stats.observe s) := by
  induction events generalizing s with
  | nil => rfl
  | cons event rest ih => exact ih (s.observe event)

theorem readFile_opened (s : Stats) (file : ArchiveHeader × List PeerEvent) :
    readFile s (opened file) = .ok (file.2.foldl Stats.observe
      (if s.network.isEmpty then { s with network := file.1.network } else s)) :=
  foldlM_observe file.2 _

theorem network_observe (events : List PeerEvent) (s : Stats) :
    (events.foldl Stats.observe s).network = s.network := by
  induction events generalizing s with
  | nil => rfl
  | cons event rest ih => rw [List.foldl_cons, ih, Stats.observe_eq]

theorem foldlM_opened {network : String} {files : List (ArchiveHeader × List PeerEvent)}
    (one : ∀ file ∈ files, file.1.network = network) {s : Stats} (here : s.network = network) :
    (files.map opened).foldlM readFile s =
      .ok ((files.flatMap Prod.snd).foldl Stats.observe s) := by
  induction files generalizing s with
  | nil => rfl
  | cons file rest ih =>
      obtain ⟨first, later⟩ := List.forall_mem_cons.mp one
      have kept : (if s.network.isEmpty then { s with network := file.1.network } else s) = s := by
        rw [first, ← here, ite_self]
      rw [List.map_cons, List.foldlM_cons, readFile_opened, kept, List.flatMap_cons,
        List.foldl_append]
      exact ih later ((network_observe file.2 s).trans here)

/-- Files of one network read as one stream. -/
theorem run_opened {network : String} {files : List (ArchiveHeader × List PeerEvent)}
    (given : files ≠ []) (one : ∀ file ∈ files, file.1.network = network) :
    run (files.map opened) =
      .ok ((files.flatMap Prod.snd).foldl Stats.observe { network := network }) := by
  obtain ⟨file, rest, rfl⟩ := List.exists_cons_of_ne_nil given
  obtain ⟨first, later⟩ := List.forall_mem_cons.mp one
  rw [run, List.map_cons, List.foldlM_cons, readFile_opened, first, List.flatMap_cons,
    List.foldl_append]
  exact foldlM_opened later (network_observe file.2 _)

/-- The text is one the tool can print, whatever order its hash maps iterate in. -/
def Prints [StatsText] (files : List (Except ReadError Archive)) (top : Nat) (text : String) :
    Prop :=
  ∃ stats shown, run files = .ok stats ∧ stats.Agree shown ∧ shown.report top = text

theorem prints_iff [StatsText] {files : List (Except ReadError Archive)} {stats : Stats}
    (read : run files = .ok stats) (top : Nat) (text : String) :
    Prints files top text ↔ text = stats.report top := by
  constructor
  · intro ⟨stats', shown, read', agree, printed⟩
    obtain rfl : stats = stats' := Except.ok.inj (read.symm.trans read')
    rw [← printed, Stats.report_agree agree]
  · intro same
    exact ⟨stats, stats, read, .refl stats, same.symm⟩

/-- One text for the same events in any order over any files of one network. -/
theorem prints_any_order [StatsText] {network : String}
    {files files' : List (ArchiveHeader × List PeerEvent)}
    (given : files ≠ []) (given' : files' ≠ [])
    (one : ∀ file ∈ files ++ files', file.1.network = network)
    (same : (files.flatMap Prod.snd).Perm (files'.flatMap Prod.snd)) (top : Nat) :
    ∃ text, ∀ printed, (Prints (files.map opened) top printed ↔ printed = text) ∧
      (Prints (files'.map opened) top printed ↔ printed = text) := by
  obtain ⟨mine, yours⟩ := List.forall_mem_append.mp one
  have agree := Stats.agree_of_perm same { network := network }
  refine ⟨_, fun printed => ⟨prints_iff (run_opened given mine) top printed, ?_⟩⟩
  rw [Stats.report_agree agree]
  exact prints_iff (run_opened given' yours) top printed

namespace Epoch

abbrev text : StatsText where
  rfc3339 secs := if secs = 0 then some "1970-01-01T00:00:00Z" else none
  percent part whole := toString (part * 100 / whole) ++ "." ++ toString (part * 1000 / whole % 10)

def header : ArchiveHeader := ⟨0, "regtest", Kind.all⟩

/-- A handshake of a peer with no services. -/
def met (addr : String) : PeerEvent := ⟨0, addr, 0, 7, some (.handshake "/Satoshi:30.0.0/" 0)⟩

end Epoch

/-- Two hosts tied for the one row, met in either order, in one file or in two. -/
theorem prints_any_order_tie :
    ∃ text, ∀ printed,
      (@Prints Epoch.text ([(Epoch.header,
        [Epoch.met "10.0.0.1:8333", Epoch.met "10.0.0.2:8333"])].map opened) 1 printed ↔
          printed = text) ∧
      (@Prints Epoch.text ([(Epoch.header, [Epoch.met "10.0.0.2:8333"]),
        (Epoch.header, [Epoch.met "10.0.0.1:8333"])].map opened) 1 printed ↔ printed = text) :=
  @prints_any_order Epoch.text "regtest" [(Epoch.header, [_, _])]
    [(Epoch.header, [_]), (Epoch.header, [_])] (List.cons_ne_nil _ _) (List.cons_ne_nil _ _)
    (by simp [Epoch.header]) (List.Perm.swap ..) 1

end P2PObserver.ArchiveStats
