import P2PObserver.Addresses.Manager
import P2PObserver.Addresses.Pick
import P2PObserver.Addresses.PlainText

/-! # Bans

A ban is enforced where the snapshot is loaded, where gossip is taken in, where it is added
and where addresses are picked. Between these an entry never becomes a gossiped one, so what
is banned stays out, over restarts as well.
-/

namespace P2PObserver

/-! ## The ban list -/

namespace Banlist

variable [AddrText]

/-- Whether one entry bans the address. -/
def matchesEntry (entry : BanEntry) (addr : PeerAddr) : Bool := contains ⟨[entry]⟩ addr

theorem contains_eq_any (banlist : Banlist) (addr : PeerAddr) :
    banlist.contains addr = banlist.entries.any (matchesEntry · addr) := by
  unfold matchesEntry contains
  cases addr.ip <;> simp

theorem matchesEntry_iff {entry : BanEntry} {addr : PeerAddr} :
    matchesEntry entry addr ↔
      (∃ ip, addr.ip = some ip ∧ ∃ net ∈ entry.nets, net.contains ip) ∨
        addr.ip = none ∧ addr.display ∈ entry.hosts := by
  unfold matchesEntry contains
  cases addr.ip <;> simp

/-- An entry without what is covered already. -/
def uncovered (banlist : Banlist) (entry : BanEntry) : BanEntry where
  comment := entry.comment
  nets := entry.nets.filter fun n => !banlist.entries.any fun e => e.nets.contains n
  hosts := entry.hosts.filter fun h => !banlist.entries.any fun e => e.hosts.contains h

theorem contains_of_entry {banlist : Banlist} {entry : BanEntry} {addr : PeerAddr}
    (listed : entry ∈ banlist.entries) (bans : matchesEntry entry addr) :
    banlist.contains addr := by
  rw [contains_eq_any, List.any_eq_true]
  exact ⟨entry, listed, bans⟩

/-- What an entry bans is banned already or by what is left of it. -/
theorem matchesEntry_uncovered (banlist : Banlist) (entry : BanEntry) (addr : PeerAddr) :
    (banlist.contains addr || matchesEntry (banlist.uncovered entry) addr) =
      (banlist.contains addr || matchesEntry entry addr) := by
  rw [Bool.eq_iff_iff, Bool.or_eq_true, Bool.or_eq_true]
  constructor
  · rintro (banned | fresh)
    · exact .inl banned
    · right
      rw [matchesEntry_iff] at fresh ⊢
      rcases fresh with ⟨ip, isIp, net, listed, within⟩ | ⟨noIp, listed⟩
      · exact .inl ⟨ip, isIp, net, (List.mem_filter.mp listed).1, within⟩
      · exact .inr ⟨noIp, (List.mem_filter.mp listed).1⟩
  · rintro (banned | bans)
    · exact .inl banned
    · rw [matchesEntry_iff] at bans
      rcases bans with ⟨ip, isIp, net, listed, within⟩ | ⟨noIp, listed⟩
      · by_cases known : banlist.entries.any fun e => e.nets.contains net
        · obtain ⟨old, stored, same⟩ := List.any_eq_true.mp known
          left
          apply contains_of_entry stored
          exact matchesEntry_iff.mpr (.inl ⟨ip, isIp, net, List.contains_iff_mem.mp same, within⟩)
        · right
          apply matchesEntry_iff.mpr
          exact .inl ⟨ip, isIp, net, List.mem_filter.mpr ⟨listed, by simpa using known⟩, within⟩
      · by_cases known : banlist.entries.any fun e => e.hosts.contains addr.display
        · obtain ⟨old, stored, same⟩ := List.any_eq_true.mp known
          left
          apply contains_of_entry stored
          exact matchesEntry_iff.mpr (.inr ⟨noIp, List.contains_iff_mem.mp same⟩)
        · right
          apply matchesEntry_iff.mpr
          exact .inr ⟨noIp, List.mem_filter.mpr ⟨listed, by simpa using known⟩⟩

omit [AddrText] in
theorem add_eq (banlist : Banlist) (entry : BanEntry) :
    banlist.add entry =
      let added := (banlist.uncovered entry).nets.length + (banlist.uncovered entry).hosts.length
      if 0 < added then (⟨banlist.entries ++ [banlist.uncovered entry]⟩, added)
      else (banlist, added) := rfl

omit [AddrText] in
/-- An entry that adds nothing leaves the list as it is. -/
theorem add_nothing {banlist : Banlist} {entry : BanEntry} (nothing : (banlist.add entry).2 = 0) :
    (banlist.add entry).1 = banlist := by
  rw [add_eq] at nothing ⊢
  dsimp only at nothing ⊢
  split
  · rename_i added
    rw [if_pos added] at nothing
    simp only at nothing
    omega
  · rfl

/-- What an entry adds is what it bans. -/
theorem contains_add (banlist : Banlist) (entry : BanEntry) (addr : PeerAddr) :
    (banlist.add entry).1.contains addr = (banlist.contains addr || matchesEntry entry addr) := by
  rw [← matchesEntry_uncovered, add_eq]
  dsimp only
  split
  · rw [contains_eq_any, contains_eq_any, List.any_append]
    simp
  · have nothing : matchesEntry (banlist.uncovered entry) addr = false := by
      have nets : (banlist.uncovered entry).nets = [] := List.length_eq_zero_iff.mp (by omega)
      have hosts : (banlist.uncovered entry).hosts = [] := List.length_eq_zero_iff.mp (by omega)
      rw [← Bool.not_eq_true, matchesEntry_iff, nets, hosts]
      simp
    rw [nothing, Bool.or_false]

end Banlist

/-! ## Gossiped entries -/

namespace Book

/-- There is an entry for the address, and gossip brought it. -/
def Gossips (book : Book) (addr : PeerAddr) : Prop :=
  ∃ e, book.entries.lookup addr = some e ∧ e.origin = .gossip

/-- The gossiped entries of one book are gossiped entries of another. -/
def Within (book larger : Book) : Prop := ∀ addr, book.Gossips addr → larger.Gossips addr

theorem Within.refl (book : Book) : book.Within book := fun _ gossips => gossips

theorem Within.trans {a b c : Book} (ab : a.Within b) (bc : b.Within c) : a.Within c :=
  fun addr gossips => bc addr (ab addr gossips)

theorem Within.of_sub {book larger : Book}
    (sub : ∀ addr e, book.entries.lookup addr = some e → larger.entries.lookup addr = some e) :
    book.Within larger := by
  intro addr ⟨e, found, gossip⟩
  exact ⟨e, sub addr e found, gossip⟩

/-- An entry is changed and its origin kept, or made the operator's. -/
theorem Within.modify {book larger : Book} (addr : PeerAddr) (change : Entry → Entry)
    (same : larger.entries = HashMap.modify book.entries addr change)
    (origin : ∀ e, (change e).origin = .gossip → e.origin = .gossip) : larger.Within book := by
  intro a ⟨e, found, gossip⟩
  rw [same, HashMap.lookup_modify] at found
  split at found
  · obtain ⟨old, stored, rfl⟩ := Option.map_eq_some_iff.mp found
    exact ⟨old, stored, origin old gossip⟩
  · exact ⟨e, found, gossip⟩

theorem Within.of_same {book larger : Book} (same : book.entries = larger.entries) :
    book.Within larger :=
  .of_sub fun addr e found => by rwa [same] at found

theorem removeAll_sub (addrs : List PeerAddr) : ∀ (entries : HashMap PeerAddr Entry) (addr : PeerAddr)
    (e : Entry), (removeAll entries addrs).1.lookup addr = some e → entries.lookup addr = some e := by
  unfold removeAll
  generalize (0 : Nat) = removed
  induction addrs generalizing removed with
  | nil =>
      intro entries addr e found
      exact found
  | cons first addrs ih =>
      intro entries addr e found
      rw [List.foldl_cons] at found
      dsimp only at found
      split at found
      · exact (HashMap.lookup_erase_iff.mp (ih _ _ addr e found)).2
      · exact ih _ _ addr e found

theorem evictBatch_within (book : Book) (now : UInt32) :
    (book.evictBatch now).1.Within book := by
  apply Within.of_sub
  intro addr e found
  exact removeAll_sub _ _ addr e (removeAll_sub _ _ addr e found)

section Ingest

variable [AddrText] (now : UInt32) (banlist : Banlist)

/-- Gossip adds nothing that is banned. -/
theorem ingestOne_gossips (book : Book) (g : Gossiped) {addr : PeerAddr}
    (gossips : (ingestOne now banlist book g).1.Gossips addr) :
    book.Gossips addr ∨ banlist.contains addr = false := by
  unfold ingestOne at gossips
  split at gossips
  · exact .inl gossips
  · rename_i allowed
    rw [Bool.or_eq_true, not_or, Bool.not_eq_true (banlist.contains _)] at allowed
    split at gossips
    · left
      refine Within.modify g.addr (refresh now g.services) rfl ?_ addr gossips
      intro e origin
      unfold refresh at origin
      dsimp only at origin
      split at origin <;> exact origin
    · have evicted : (if book.capacity ≤ book.len then book.evictBatch now else (book, true)).1.Within
          book := by
        split
        · exact book.evictBatch_within now
        · exact .refl book
      generalize (if book.capacity ≤ book.len then book.evictBatch now else (book, true)) = made
        at evicted gossips
      obtain ⟨kept, room⟩ := made
      dsimp only at gossips
      split at gossips
      · obtain ⟨e, found, origin⟩ := gossips
        rcases HashMap.lookup_insert_iff.mp found with ⟨rfl, -⟩ | ⟨-, found⟩
        · exact .inr allowed.2
        · exact .inl (evicted addr ⟨e, found, origin⟩)
      · exact .inl (evicted addr gossips)

theorem ingest_gossips (addrs : List Gossiped) : ∀ (book : Book) {addr : PeerAddr},
    (book.ingest now addrs banlist).1.Gossips addr →
      book.Gossips addr ∨ banlist.contains addr = false := by
  unfold ingest
  generalize (0 : Nat) = added
  induction addrs generalizing added with
  | nil => exact fun book addr gossips => .inl gossips
  | cons g addrs ih =>
      intro book addr gossips
      rw [List.foldl_cons] at gossips
      rcases ih _ _ gossips with earlier | spared
      · exact ingestOne_gossips now banlist book g earlier
      · exact .inr spared

end Ingest

theorem insertManualOne_within (now : UInt32) (book : Book) (addr : PeerAddr) :
    (insertManualOne now book addr).1.Within book := by
  unfold insertManualOne
  split
  · split
    · exact .refl book
    · refine .modify addr (fun e => { e with origin := .manual }) rfl ?_
      intro e manual
      cases manual
  · intro a ⟨e, found, gossip⟩
    rcases HashMap.lookup_insert_iff.mp found with ⟨-, rfl⟩ | ⟨-, found⟩
    · cases gossip
    · exact ⟨e, found, gossip⟩

theorem insertManual_within (now : UInt32) (addrs : List PeerAddr) : ∀ book : Book,
    (book.insertManual now addrs).1.Within book := by
  unfold insertManual
  generalize (0 : Nat) = added
  induction addrs generalizing added with
  | nil => exact fun book => .refl book
  | cons addr addrs ih =>
      intro book
      rw [List.foldl_cons]
      exact (ih _ _).trans (insertManualOne_within now book addr)

theorem recordEnded_within (book : Book) (addr : PeerAddr) (now : UInt32) (outcome : Outcome) :
    (book.recordEnded addr now outcome).Within book := by
  unfold recordEnded
  dsimp only
  split
  · exact .of_same rfl
  · rename_i e stored
    split
    · exact .of_sub fun a e found => (HashMap.lookup_erase_iff.mp found).2
    · intro a ⟨e', found, gossip⟩
      dsimp only at found
      rw [HashMap.lookup_modify] at found
      split at found
      · rename_i same
        subst same
        obtain ⟨old, stored', rfl⟩ := Option.map_eq_some_iff.mp found
        refine ⟨e, stored, ?_⟩
        have kept : (judge outcome e).origin = e.origin := by
          unfold judge
          cases outcome <;> rfl
        exact kept ▸ gossip
      · exact ⟨e', found, gossip⟩

theorem recordDialing_within (book : Book) (addr : PeerAddr) (now : UInt32) :
    (book.recordDialing addr now).Within book :=
  .modify addr (fun e => { e with lastAttempt := now }) rfl fun _ origin => origin

theorem recordAll_within (now : UInt32) (dials : List Dial) : ∀ book : Book,
    (dials.foldl (fun book d => book.recordDialing d.addr now) book).Within book := by
  induction dials with
  | nil => exact fun book => .refl book
  | cons d dials ih => exact fun book => (ih _).trans (recordDialing_within book d.addr now)

theorem recordConnected_within (book : Book) (addr : PeerAddr) (now : UInt32) (services : UInt64)
    (transportVersion : UInt8) :
    (book.recordConnected addr now services transportVersion).Within book :=
  .modify addr (welcome now services transportVersion) rfl fun _ origin => origin

theorem recordV1Only_within (book : Book) (addr : PeerAddr) :
    (book.recordV1Only addr).Within book := by
  refine .modify addr
    (fun e => if e.transport = .unknown then { e with transport := .v1Only } else e) rfl ?_
  intro e origin
  split at origin <;> exact origin

section Ban

variable [AddrText]

theorem pick_within (book : Book) (now : UInt32) (budget : Nat) (nets : EnabledNets)
    (banlist : Banlist) : (book.pick now budget nets banlist).2.Within book :=
  (recordAll_within now (book.pick now budget nets banlist).1 _).trans (.of_same rfl)

theorem purgeBanned_lookup {book : Book} {banlist : Banlist} {addr : PeerAddr} {e : Entry}
    (found : (book.purgeBanned banlist).1.entries.lookup addr = some e) :
    book.entries.lookup addr = some e ∧ banlist.contains addr = false := by
  obtain ⟨stored, kept⟩ := HashMap.lookup_retain_iff.mp found
  exact ⟨stored, by simpa using kept⟩

end Ban

end Book

/-! ## The manager -/

namespace Manager

variable [AddrText]

/-- No gossiped entry is banned. -/
def Spared (m : Manager) : Prop := ∀ addr, m.book.Gossips addr → m.banlist.contains addr = false

theorem new_spared (cfg : Config) (seed : UInt64) (snapshot : HashMap PeerAddr Entry)
    (banlist : Banlist) : (new cfg seed snapshot banlist).Spared := by
  intro addr ⟨e, found, _⟩
  exact (Book.purgeBanned_lookup found).2

theorem Spared.within {m m' : Manager} (spared : m.Spared) (book : m'.book.Within m.book)
    (banlist : m'.banlist = m.banlist) : m'.Spared := by
  intro addr gossips
  rw [banlist]
  exact spared addr (book addr gossips)

/-- Where a ban adds nothing the purge is skipped, and there is nothing to purge. -/
theorem Spared.ban {m : Manager} (spared : m.Spared) (entry : BanEntry) (saved : Option String)
    (now : UInt32) : (m.command (.ban entry) saved now).1.Spared := by
  intro addr gossips
  simp only [command] at gossips ⊢
  split at gossips
  · obtain ⟨e, found, _⟩ := gossips
    exact (Book.purgeBanned_lookup found).2
  · rename_i nothing
    rw [Banlist.add_nothing (Nat.eq_zero_of_not_pos nothing)]
    exact spared addr gossips

theorem Spared.command {m : Manager} (spared : m.Spared) (cmd : Command) (saved : Option String)
    (now : UInt32) : (m.command cmd saved now).1.Spared := by
  cases cmd with
  | addManual addrs => exact spared.within (Book.insertManual_within now addrs m.book) rfl
  | ban entry => exact spared.ban entry saved now
  | banList => exact spared
  | stats => exact spared
  | inspect addr => exact spared
  | dueNext limit => exact spared

theorem Spared.apply {m : Manager} (spared : m.Spared) (msg : Lifecycle) (now : UInt32) :
    (m.apply msg now).Spared := by
  cases msg with
  | connected addr services transportVersion =>
      exact spared.within (m.book.recordConnected_within addr now services transportVersion) rfl
  | v1Only addr => exact spared.within (m.book.recordV1Only_within addr) rfl
  | ended addr outcome => exact spared.within (m.book.recordEnded_within addr now outcome) rfl

theorem Spared.reorder {m : Manager} (spared : m.Spared) (entries : HashMap PeerAddr Entry) :
    (m.reorder entries).Spared := by
  unfold Manager.reorder
  split
  · rename_i perm
    refine spared.within (Book.Within.of_sub ?_) rfl
    intro addr e found
    exact HashMap.mem_entries_iff.mp (perm.mem_iff.mp (HashMap.mem_entries_iff.mpr found))
  · exact spared

theorem Spared.step {m : Manager} (spared : m.Spared) (event : ManagerEvent) :
    (m.step event).Spared := by
  cases event with
  | tick now => exact spared.within (m.book.pick_within now m.budget m.cfg.nets m.banlist) rfl
  | apply msg now => exact spared.apply msg now
  | ingest now addrs =>
      intro addr gossips
      rcases Book.ingest_gossips now m.banlist addrs m.book gossips with earlier | allowed
      · exact spared addr earlier
      · exact allowed
  | command cmd saved now => exact spared.command cmd saved now
  | reorder entries => exact spared.reorder entries

/-- A tick hands out nothing that is banned. -/
theorem next_spares {m : Manager} {event : ManagerEvent} {dial : Dial}
    (dialled : dial ∈ (m.next event).2) : m.banlist.contains dial.addr = false := by
  cases event with
  | tick now =>
      obtain ⟨e, -, -, due⟩ := Book.pick_due dialled
      simp only [Book.due, Bool.and_eq_true, Bool.not_eq_true'] at due
      exact due.2
  | apply msg now => cases dialled
  | ingest now addrs => cases dialled
  | command cmd saved now => cases dialled
  | reorder entries => cases dialled

/-- The ban list after an event. -/
theorem step_banlist (m : Manager) (event : ManagerEvent) :
    (m.step event).banlist =
      match event with
      | .command (.ban entry) _ _ => (m.banlist.add entry).1
      | _ => m.banlist := by
  cases event with
  | tick now => rfl
  | apply msg now => cases msg <;> rfl
  | ingest now addrs => rfl
  | command cmd saved now => cases cmd <;> rfl
  | reorder entries =>
      simp only [step, next, reorder]
      split <;> rfl

end Manager

/-! ## Restarts -/

/-- An observer's manager and the ban list on its disk. -/
structure Deployment where
  manager : Manager
  stored : Banlist

inductive DeploymentEvent where
  | manager (event : ManagerEvent)
  /-- The observer is started again, with whatever snapshot it finds. -/
  | restart (cfg : Config) (seed : UInt64) (snapshot : HashMap PeerAddr Entry)

namespace Deployment

variable [AddrText]

/-- The first start, over what is on disk. -/
def start (cfg : Config) (seed : UInt64) (snapshot : HashMap PeerAddr Entry) (stored : Banlist) :
    Deployment :=
  ⟨.new cfg seed snapshot stored, stored⟩

def step (s : Deployment) : DeploymentEvent → Deployment
  | .manager event =>
      let manager := s.manager.step event
      match event with
      -- a ban is written out; a failed write leaves the file as it was
      | .command (.ban _) none _ => ⟨manager, manager.banlist⟩
      | _ => ⟨manager, s.stored⟩
  | .restart cfg seed snapshot => ⟨.new cfg seed snapshot s.stored, s.stored⟩

def run (s : Deployment) (events : List DeploymentEvent) : Deployment :=
  Run.runFrom step s events

end Deployment

/-- The ban list is written whenever it is to be. -/
def DeploymentEvent.Saves : DeploymentEvent → Prop
  | .manager (.command (.ban _) saved _) => saved = none
  | _ => True

namespace Deployment

variable [AddrText]

/-- What holds between two events: the ban list is on disk and no gossiped entry is on it. -/
structure Kept (s : Deployment) : Prop where
  spared : s.manager.Spared
  stored : s.stored = s.manager.banlist

theorem start_kept (cfg : Config) (seed : UInt64) (snapshot : HashMap PeerAddr Entry)
    (stored : Banlist) : (start cfg seed snapshot stored).Kept :=
  ⟨Manager.new_spared cfg seed snapshot stored, rfl⟩

/-- One event keeps the invariant, and no ban is lost in it. -/
theorem Kept.step {s : Deployment} (kept : s.Kept) {event : DeploymentEvent} (saves : event.Saves) :
    (s.step event).Kept ∧ ∀ addr, s.manager.banlist.contains addr →
      (s.step event).manager.banlist.contains addr := by
  cases event with
  | restart cfg seed snapshot =>
      refine ⟨⟨Manager.new_spared cfg seed snapshot s.stored, rfl⟩, ?_⟩
      intro addr banned
      rw [← kept.stored] at banned
      exact banned
  | manager event =>
      have spared := kept.spared.step event
      have list := s.manager.step_banlist event
      by_cases ban : ∃ entry saved now, event = .command (.ban entry) saved now
      · obtain ⟨entry, saved, now, rfl⟩ := ban
        obtain rfl : saved = none := saves
        refine ⟨⟨spared, rfl⟩, ?_⟩
        intro addr banned
        have more := s.manager.banlist.contains_add entry addr
        rw [banned, Bool.true_or] at more
        exact more
      · have same : (s.manager.step event).banlist = s.manager.banlist := by
          rw [list]
          split
          · rename_i entry saved now
            exact absurd ⟨entry, saved, now, rfl⟩ ban
          · rfl
        have next : s.step (.manager event) = ⟨s.manager.step event, s.stored⟩ := by
          simp only [Deployment.step]
          split
          · rename_i entry now
            exact absurd ⟨entry, none, now, rfl⟩ ban
          · rfl
        rw [next]
        refine ⟨⟨spared, kept.stored.trans same.symm⟩, ?_⟩
        intro addr banned
        rw [← same] at banned
        exact banned

/-- A ban covers what it names from then on. -/
theorem Kept.ban {s : Deployment} (entry : BanEntry) (saved : Option String) (now : UInt32)
    {addr : PeerAddr} (bans : Banlist.matchesEntry entry addr) :
    (s.step (.manager (.command (.ban entry) saved now))).manager.banlist.contains addr := by
  have more := s.manager.banlist.contains_add entry addr
  rw [bans, Bool.or_true] at more
  cases saved <;> exact more

/-- A whole run keeps the invariant and every ban. -/
theorem Kept.run (events : List DeploymentEvent) : ∀ {s : Deployment}, s.Kept →
    (∀ event ∈ events, event.Saves) →
    (s.run events).Kept ∧ ∀ addr, s.manager.banlist.contains addr →
      (s.run events).manager.banlist.contains addr := by
  induction events with
  | nil => exact fun kept _ => ⟨kept, fun _ banned => banned⟩
  | cons event rest ih =>
      intro s kept saves
      obtain ⟨here, later⟩ := List.forall_mem_cons.mp saves
      obtain ⟨next, more⟩ := kept.step here
      obtain ⟨last, still⟩ := ih next later
      exact ⟨last, fun addr banned => still addr (more addr banned)⟩

/-- Bans hold over whole runs. -/
theorem run_bans_hold (cfg : Config) (seed : UInt64) (snapshot : HashMap PeerAddr Entry)
    (stored : Banlist) (events : List DeploymentEvent) (saves : ∀ event ∈ events, event.Saves) :
    let s := (start cfg seed snapshot stored).run events
    (∀ event, ∀ dial ∈ (s.manager.next event).2, s.manager.banlist.contains dial.addr = false) ∧
      (∀ addr e, s.manager.book.entry addr = some e → e.origin = .gossip →
        s.manager.banlist.contains addr = false) ∧
      (∀ before after, events = before ++ after → ∀ addr,
        ((start cfg seed snapshot stored).run before).manager.banlist.contains addr →
          s.manager.banlist.contains addr) ∧
      (∀ entry saved now, .manager (.command (.ban entry) saved now) ∈ events →
        ∀ addr, Banlist.matchesEntry entry addr → s.manager.banlist.contains addr) := by
  intro s
  have begun := start_kept cfg seed snapshot stored
  obtain ⟨kept, -⟩ := begun.run events saves
  refine ⟨fun event dial dialled => Manager.next_spares dialled, ?_, ?_, ?_⟩
  · intro addr e found gossip
    exact kept.spared addr ⟨e, found, gossip⟩
  · rintro before after rfl addr banned
    obtain ⟨early, late⟩ := List.forall_mem_append.mp saves
    obtain ⟨between, -⟩ := begun.run before early
    obtain ⟨-, still⟩ := between.run after late
    have whole : s = ((start cfg seed snapshot stored).run before).run after :=
      Run.runFrom_append ..
    rw [whole]
    exact still addr banned
  · intro entry saved now listed addr bans
    obtain ⟨before, after, rfl⟩ := List.append_of_mem listed
    obtain ⟨early, late⟩ := List.forall_mem_append.mp saves
    obtain ⟨here, late⟩ := List.forall_mem_cons.mp late
    obtain ⟨between, -⟩ := begun.run before early
    obtain ⟨next, -⟩ := between.step here
    obtain ⟨-, still⟩ := next.run after late
    have whole : s = (((start cfg seed snapshot stored).run before).step
        (.manager (.command (.ban entry) saved now))).run after := Run.runFrom_append ..
    rw [whole]
    exact still addr (Kept.ban entry saved now bans)

end Deployment

namespace Deployment

/-! ## One subnet -/

namespace Subnet

def cfg : Config :=
  { dialsPerTick := 8, maxDialing := 64, capacity := 1000,
    nets := { ipv4 := true, ipv6 := true, tor := true, cjdns := true, i2p := true } }

def peer : PeerAddr := .ipv4 ⟨[9, 8, 7, 6], rfl⟩ 8333

def ban : BanEntry := ⟨none, [⟨.v4 ⟨[9, 8, 7, 0], rfl⟩, 24⟩], []⟩

/-- A gossiped address is banned, gossiped again, added by the operator and found in an old
    snapshot. -/
def events : List DeploymentEvent :=
  [.manager (.ingest 10 [⟨peer, 0⟩]), .manager (.command (.ban ban) none 20),
    .manager (.ingest 30 [⟨peer, 0⟩]), .manager (.command (.addManual [peer]) none 40),
    .restart cfg 50 (AList.insert peer (.new 10 0 .gossip) ∅)]

/-- The deployment after them. -/
def final : Deployment :=
  @run plainText.toAddrText (@start plainText.toAddrText cfg 1 ∅ ⟨[]⟩) events

end Subnet

theorem run_bans_hold_subnet :
    @Banlist.contains plainText.toAddrText Subnet.final.manager.banlist Subnet.peer ∧
      ∀ dial ∈ (@Manager.next plainText.toAddrText Subnet.final.manager (.tick 60)).2,
        @Banlist.contains plainText.toAddrText Subnet.final.manager.banlist dial.addr = false := by
  obtain ⟨spares, -, -, bans⟩ := @run_bans_hold plainText.toAddrText Subnet.cfg 1 ∅ ⟨[]⟩
    Subnet.events (by simp [Subnet.events, DeploymentEvent.Saves])
  refine ⟨bans Subnet.ban none 20 ?_ Subnet.peer (by decide), spares (.tick 60)⟩
  simp [Subnet.events]

end Deployment

end P2PObserver
