import P2PObserver.Addresses.Active

/-! # The in-flight ceiling

A tick fills the manual pool and the shared classes up to its budget each, and the
reconnects up to a cap of their own. It keeps the ceiling exactly when the three together
fit the room left.
-/

namespace P2PObserver

namespace Manager

variable [AddrText] (m : Manager)

omit [AddrText] in
theorem dialingCount_eq : m.book.dialingCount = m.book.active.entries.countP (·.2 = .dialing) :=
  rfl

theorem dialingCount_tick (now : UInt32) :
    (m.tick now).1.book.dialingCount =
      m.book.dialingCount + m.book.pickSize now m.budget m.cfg.nets m.banlist :=
  Book.dialingCount_pick ..

/-- What a tick starts fits the room under the ceiling. -/
def FitsRoom (m : Manager) : ManagerEvent → Prop
  | .tick now =>
      m.book.pickSize now m.budget m.cfg.nets m.banlist ≤ m.cfg.maxDialing - m.book.dialingCount
  | _ => True

/-- Only a tick starts attempts. -/
theorem dialingCount_step {event : ManagerEvent} (other : ∀ now, event ≠ .tick now) :
    (m.step event).book.dialingCount ≤ m.book.dialingCount := by
  rw [dialingCount_eq, dialingCount_eq, m.step_active event]
  cases event with
  | tick now => exact absurd rfl (other now)
  | apply msg now =>
      cases msg with
      | connected addr services transportVersion =>
          simp only [AList.entries_insert]
          rw [List.countP_cons_of_neg (by simp)]
          exact (List.kerase_sublist ..).countP_le
      | v1Only addr => exact le_rfl
      | ended addr outcome => exact (List.kerase_sublist ..).countP_le
  | ingest now addrs => exact le_rfl
  | command cmd saved now => exact le_rfl
  | reorder entries => exact le_rfl

/-- Under the ceiling, an event keeps it exactly when what it starts fits. -/
theorem step_le_iff (within : m.book.dialingCount ≤ m.cfg.maxDialing) (event : ManagerEvent) :
    (m.step event).book.dialingCount ≤ (m.step event).cfg.maxDialing ↔ m.FitsRoom event := by
  rw [step_cfg]
  cases event with
  | tick now =>
      have count : (m.step (.tick now)).book.dialingCount = _ := m.dialingCount_tick now
      rw [count, FitsRoom]
      omega
  | _ =>
      simp only [FitsRoom, iff_true]
      exact (m.dialingCount_step (by intro now same; cases same)).trans within

/-- A run stays under the ceiling exactly when every tick of it fits the room it finds. -/
theorem run_within_ceiling_iff (cfg : Config) (seed : UInt64) (snapshot : HashMap PeerAddr Entry)
    (banlist : Banlist) (events : List ManagerEvent) :
    (∀ before, before <+: events →
        ((new cfg seed snapshot banlist).run before).book.dialingCount ≤ cfg.maxDialing) ↔
      Run.Along step FitsRoom (new cfg seed snapshot banlist) events := by
  have along := Run.prefixes_iff_along (P := fun m => m.book.dialingCount ≤ m.cfg.maxDialing) step
    (fun m event within => m.step_le_iff within event) events (new cfg seed snapshot banlist)
    (Nat.zero_le _)
  rw [← along]
  refine forall_congr' fun before => imp_congr_right fun _ => ?_
  have same : ((new cfg seed snapshot banlist).run before).cfg = cfg := run_cfg ..
  rw [← run, same]

end Manager

/-! ## One manual address and one unknown -/

namespace Ceiling

/-- The text forms, for addresses that are never rendered. -/
@[reducible] def text : AddrText where
  ipv4 bytes := ".".intercalate (bytes.val.map fun byte => toString byte.toNat)
  ipv6 _ := ""
  sha3_256 _ := ⟨List.replicate 32 0, List.length_replicate⟩

def nets : EnabledNets := { ipv4 := true, ipv6 := true, tor := true, cjdns := true, i2p := true }

def peer (last : UInt8) : PeerAddr := .ipv4 ⟨[1, 2, 3, last], rfl⟩ 8333

def cfg : Config := { dialsPerTick := 1, maxDialing := 1, capacity := 1000, nets }

def events : List ManagerEvent :=
  [.command (.addManual [peer 1]) none 1000000,
    .ingest 1000000 [{ addr := peer 2, services := 0 }], .tick 1000000]

/-- The two due addresses are both dialled, one from each pool, where one is the most. -/
theorem two_in_flight :
    (@Manager.run text (@Manager.new text cfg 0 ∅ { entries := [] }) events).book.dialingCount = 2 ∧
      cfg.maxDialing = 1 := by
  decide +kernel

end Ceiling

end P2PObserver
