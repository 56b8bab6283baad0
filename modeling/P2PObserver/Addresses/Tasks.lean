import P2PObserver.Addresses.Active

/-! # One task an address

Each dial handed out becomes a task. It sends the manager its reports in order, and last of
all its `Ended`; the manager takes them one at a time, interleaved with everything else.
-/

namespace P2PObserver

/-- What a task may report before it ends. -/
inductive Report where
  | v1Only
  | connected (services : UInt64) (transportVersion : UInt8)

def Report.message (addr : PeerAddr) : Report → Lifecycle
  | .v1Only => .v1Only addr
  | .connected services transportVersion => .connected addr services transportVersion

structure Task where
  addr : PeerAddr
  /-- Sent and not yet taken, oldest first. -/
  queue : List Report
  /-- Whether its `Connected` has been sent. -/
  connected : Bool
  /-- Its `Ended`, the last message of the queue, once it is sent. -/
  ended : Option Outcome

namespace Task

/-- The task of a dial. -/
def spawn (dial : Dial) : Task :=
  { addr := dial.addr, queue := [], connected := false, ended := none }

/-- Send a report: none after the `Ended`, and one `Connected` at most. -/
def send (t : Task) (report : Report) : Task :=
  if t.ended.isSome then t
  else
    match report with
    | .v1Only => { t with queue := t.queue ++ [report] }
    | .connected .. =>
        if t.connected then t else { t with queue := t.queue ++ [report], connected := true }

/-- Drop the guard: the first outcome is the one sent. -/
def finish (t : Task) (outcome : Outcome) : Task := { t with ended := some (t.ended.getD outcome) }

end Task

/-- The manager and the tasks whose `Ended` it has not taken. -/
structure Fleet where
  manager : Manager
  tasks : List Task

inductive FleetEvent where
  | manager (event : ManagerEvent)
  | send (i : Nat) (report : Report)
  | finish (i : Nat) (outcome : Outcome)
  | deliver (i : Nat) (now : UInt32)

namespace Fleet

/-- The manager takes the next message of a task. -/
def deliver (s : Fleet) (i : Nat) (now : UInt32) : Fleet :=
  match s.tasks[i]? with
  | none => s
  | some t =>
      match t.queue with
      | report :: rest =>
          { manager := s.manager.apply (report.message t.addr) now
            tasks := s.tasks.set i { t with queue := rest } }
      | [] =>
          match t.ended with
          | some outcome =>
              { manager := s.manager.apply (.ended t.addr outcome) now
                tasks := s.tasks.eraseIdx i }
          | none => s

def step [AddrText] (s : Fleet) : FleetEvent → Fleet
  -- messages come from the tasks
  | .manager (.apply ..) => s
  | .manager event =>
      let (manager, dials) := s.manager.next event
      { manager, tasks := s.tasks ++ dials.map Task.spawn }
  | .send i report => { s with tasks := s.tasks.modify i (·.send report) }
  | .finish i outcome => { s with tasks := s.tasks.modify i (·.finish outcome) }
  | .deliver i now => s.deliver i now

def run [AddrText] (s : Fleet) (events : List FleetEvent) : Fleet := Run.runFrom step s events

/-- The addresses with a live task. -/
def live (s : Fleet) : List PeerAddr := s.tasks.map Task.addr

/-- The live tasks have different addresses, and the active set is exactly those. -/
structure Tracked (s : Fleet) : Prop where
  distinct : s.live.Nodup
  active : ∀ a, (s.manager.book.active.lookup a).isSome ↔ a ∈ s.live

variable {s : Fleet}

/-- What changes neither the tasks' addresses nor the active set keeps them together. -/
theorem Tracked.congr {s' : Fleet} (T : s.Tracked) (live : s'.live = s.live)
    (active : s'.manager.book.active = s.manager.book.active) : s'.Tracked where
  distinct := live ▸ T.distinct
  active a := by
    rw [active, live]
    exact T.active a

theorem live_set {i : Nat} {t t' : Task} (found : s.tasks[i]? = some t) (same : t'.addr = t.addr) :
    (s.tasks.set i t').map Task.addr = s.live := by
  apply List.ext_getElem?
  intro j
  simp only [live, List.getElem?_map, List.getElem?_set]
  grind

theorem live_modify (i : Nat) (change : Task → Task) (same : ∀ t, (change t).addr = t.addr) :
    (s.tasks.modify i change).map Task.addr = s.live := by
  apply List.ext_getElem?
  intro j
  simp only [live, List.getElem?_map, List.getElem?_modify]
  cases s.tasks[j]? <;> grind

theorem send_addr (t : Task) (report : Report) : (t.send report).addr = t.addr := by
  unfold Task.send
  split
  · rfl
  · cases report with
    | v1Only => rfl
    | connected services transportVersion =>
        dsimp only
        split <;> rfl

/-- A handshake marks an address that is active already. -/
theorem Tracked.connected {i : Nat} {t t' : Task} (T : s.Tracked) (found : s.tasks[i]? = some t)
    (same : t'.addr = t.addr) (services : UInt64) (transportVersion : UInt8) (now : UInt32) :
    Tracked { manager := s.manager.apply (.connected t.addr services transportVersion) now
              tasks := s.tasks.set i t' } where
  distinct := by
    rw [live, live_set found same]
    exact T.distinct
  active a := by
    have mine : t.addr ∈ s.live := List.mem_map_of_mem (List.mem_of_getElem? found)
    have insert : (s.manager.apply (.connected t.addr services transportVersion) now).book.active =
        s.manager.book.active.insert t.addr .connected := rfl
    rw [live, live_set found same, ← T.active a, insert]
    by_cases own : a = t.addr
    · rw [own, AList.lookup_insert]
      simpa using (T.active t.addr).mpr mine
    · rw [AList.lookup_insert_ne own]

/-- The end of a task takes its address out of both. -/
theorem Tracked.ended {i : Nat} {t : Task} (T : s.Tracked) (found : s.tasks[i]? = some t)
    (outcome : Outcome) (now : UInt32) :
    Tracked { manager := s.manager.apply (.ended t.addr outcome) now
              tasks := s.tasks.eraseIdx i } := by
  have erase : (s.manager.apply (.ended t.addr outcome) now).book.active =
      s.manager.book.active.erase t.addr := Book.recordEnded_active ..
  have rest : (s.tasks.eraseIdx i).map Task.addr = s.live.erase t.addr := by
    obtain ⟨inside, here⟩ := List.getElem?_eq_some_iff.mp found
    have bound : i < s.live.length := by
      rw [live, List.length_map]
      exact inside
    have first : s.live.idxOf t.addr = i := by
      have := T.distinct.idxOf_getElem i bound
      simpa [live, here] using this
    rw [List.erase_eq_eraseIdx_of_idxOf first, live, List.eraseIdx_map]
  constructor
  · rw [live, rest]
    exact T.distinct.erase _
  · intro a
    rw [live, rest, erase, T.distinct.mem_erase_iff, ← T.active a]
    by_cases own : a = t.addr
    · rw [own, AList.lookup_erase]
      simp
    · simp [own, AList.lookup_erase_ne own]

theorem Tracked.deliver (T : s.Tracked) (i : Nat) (now : UInt32) : (s.deliver i now).Tracked := by
  unfold Fleet.deliver
  cases found : s.tasks[i]? with
  | none => exact T
  | some t =>
      dsimp only
      cases queue : t.queue with
      | cons report rest =>
          cases report with
          | v1Only => exact T.congr (live_set found rfl) rfl
          | connected services transportVersion =>
              exact T.connected found (rfl : Task.addr { t with queue := rest } = t.addr) services
                transportVersion now
      | nil =>
          cases ended : t.ended with
          | none => exact T
          | some outcome => exact T.ended found outcome now

/-- A tick hands out no address with a live task. -/
theorem Tracked.fresh [AddrText] (T : s.Tracked) (now : UInt32) {d : Dial}
    (taken : d ∈ (s.manager.tick now).2) : d.addr ∉ s.live := by
  intro member
  have idle : s.manager.book.active.lookup d.addr = none := Book.pick_inactive taken
  have marked := (T.active d.addr).mpr member
  rw [idle] at marked
  cases marked

theorem Tracked.tick [AddrText] (T : s.Tracked) (now : UInt32) :
    (s.step (.manager (.tick now))).Tracked := by
  have spawned : (s.step (.manager (.tick now))).live =
      s.live ++ (s.manager.tick now).2.map Dial.addr := by
    simp only [step, live, Manager.next, List.map_append, List.map_map]
    rfl
  constructor
  · rw [spawned, List.nodup_append']
    refine ⟨T.distinct, Book.pick_nodup .., ?_⟩
    intro a member taken
    obtain ⟨d, dialled, rfl⟩ := List.mem_map.mp taken
    exact T.fresh now dialled member
  · intro a
    have marked : (s.step (.manager (.tick now))).manager.book.active.lookup a =
        if a ∈ (s.manager.tick now).2.map Dial.addr then some .dialing
        else s.manager.book.active.lookup a := Book.pick_lookup ..
    rw [spawned, marked, List.mem_append, ← T.active a]
    split <;> simp_all

theorem Tracked.step [AddrText] (T : s.Tracked) (event : FleetEvent) : (s.step event).Tracked := by
  cases event with
  | manager event =>
      have active := s.manager.step_active event
      cases event with
      | tick now => exact T.tick now
      | apply msg now => exact T
      | ingest now addrs => exact T.congr (by simp [Fleet.step, live, Manager.next]) active
      | command cmd saved now => exact T.congr (by simp [Fleet.step, live, Manager.next]) active
      | reorder entries => exact T.congr (by simp [Fleet.step, live, Manager.next]) active
  | send i report => exact T.congr (live_modify i _ fun t => send_addr t report) rfl
  | finish i outcome => exact T.congr (live_modify i _ fun _ => rfl) rfl
  | deliver i now => exact T.deliver i now

/-- A fleet before its first dial. -/
def new [AddrText] (cfg : Config) (seed : UInt64) (snapshot : HashMap PeerAddr Entry)
    (banlist : Banlist) : Fleet :=
  { manager := .new cfg seed snapshot banlist, tasks := [] }

theorem run_tracked [AddrText] (cfg : Config) (seed : UInt64) (snapshot : HashMap PeerAddr Entry)
    (banlist : Banlist) (events : List FleetEvent) :
    ((new cfg seed snapshot banlist).run events).Tracked := by
  have start : (new cfg seed snapshot banlist).Tracked := by
    constructor
    · exact List.nodup_nil
    · intro a
      simp [new, live, Manager.new_active]
  exact Run.runFrom_preserves step (fun s event T => T.step event) start events

/-- In every run no address has two live tasks, every address with one is active, no tick
    hands one out again, and without live tasks nothing is active. -/
theorem run_one_task_an_address [AddrText] (cfg : Config) (seed : UInt64)
    (snapshot : HashMap PeerAddr Entry) (banlist : Banlist) (events : List FleetEvent) :
    let s := (new cfg seed snapshot banlist).run events
    s.live.Nodup ∧
      (∀ t ∈ s.tasks, (s.manager.book.active.lookup t.addr).isSome) ∧
      (∀ now, ∀ d ∈ (s.manager.tick now).2, d.addr ∉ s.live) ∧
      (s.tasks = [] → s.manager.book.active = ∅) := by
  intro s
  have T : s.Tracked := run_tracked cfg seed snapshot banlist events
  refine ⟨T.distinct, fun t member => (T.active t.addr).mpr (List.mem_map_of_mem member),
    fun now d taken => T.fresh now taken, ?_⟩
  intro no_task
  apply HashMap.eq_empty
  intro a
  have idle := (T.active a).not.mpr (by simp [live, no_task])
  simpa using idle

end Fleet

end P2PObserver
