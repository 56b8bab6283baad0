import P2PObserver.Addresses.Manager
import P2PObserver.Addresses.Pick

/-! # The active set

Only a pick, a handshake and the end of an attempt touch the active set; entries come and
go beside it.
-/

namespace P2PObserver

namespace Book

variable (book : Book)

theorem ingestOne_active [AddrText] (now : UInt32) (banlist : Banlist) (g : Gossiped) :
    (ingestOne now banlist book g).1.active = book.active := by
  unfold ingestOne
  dsimp only
  split
  · rfl
  · split
    · rfl
    · split <;> split <;> rfl

theorem ingest_active [AddrText] (now : UInt32) (addrs : List Gossiped) (banlist : Banlist) :
    (book.ingest now addrs banlist).1.active = book.active := by
  unfold ingest
  generalize (0 : Nat) = added
  induction addrs generalizing book added with
  | nil => rfl
  | cons g addrs ih =>
      rw [List.foldl_cons]
      exact (ih _ _).trans (ingestOne_active ..)

theorem insertManualOne_active (now : UInt32) (addr : PeerAddr) :
    (insertManualOne now book addr).1.active = book.active := by
  unfold insertManualOne
  split
  · split <;> rfl
  · rfl

theorem insertManual_active (now : UInt32) (addrs : List PeerAddr) :
    (book.insertManual now addrs).1.active = book.active := by
  unfold insertManual
  generalize (0 : Nat) = added
  induction addrs generalizing book added with
  | nil => rfl
  | cons addr addrs ih =>
      rw [List.foldl_cons]
      exact (ih _ _).trans (insertManualOne_active ..)

theorem recordEnded_active (addr : PeerAddr) (now : UInt32) (outcome : Outcome) :
    (book.recordEnded addr now outcome).active = book.active.erase addr := by
  unfold recordEnded
  dsimp only
  split
  · rfl
  · split <;> rfl

end Book

namespace Manager

variable [AddrText] (m : Manager)

theorem command_active (cmd : Command) (saved : Option String) (now : UInt32) :
    (m.command cmd saved now).1.book.active = m.book.active := by
  cases cmd with
  | addManual addrs => exact m.book.insertManual_active now addrs
  | ban entry =>
      simp only [command]
      split <;> rfl
  | banList => rfl
  | stats => rfl
  | inspect addr => rfl
  | dueNext limit => rfl

omit [AddrText] in
theorem reorder_active (entries : HashMap PeerAddr Entry) :
    (m.reorder entries).book.active = m.book.active := by
  unfold reorder
  split <;> rfl

/-- What an event does to the active set. -/
theorem step_active (event : ManagerEvent) :
    (m.step event).book.active =
      match event with
      | .tick now => (m.book.pick now m.budget m.cfg.nets m.banlist).2.active
      | .apply (.connected addr _ _) _ => m.book.active.insert addr .connected
      | .apply (.ended addr _) _ => m.book.active.erase addr
      | _ => m.book.active := by
  cases event with
  | tick now => rfl
  | apply msg now =>
      cases msg with
      | connected addr services transportVersion => rfl
      | v1Only addr => rfl
      | ended addr outcome => exact m.book.recordEnded_active addr now outcome
  | ingest now addrs => exact m.book.ingest_active now addrs m.banlist
  | command cmd saved now => exact m.command_active cmd saved now
  | reorder entries => exact m.reorder_active entries

theorem step_cfg (event : ManagerEvent) : (m.step event).cfg = m.cfg := by
  cases event with
  | tick now => rfl
  | apply msg now => cases msg <;> rfl
  | ingest now addrs => rfl
  | command cmd saved now => cases cmd <;> rfl
  | reorder entries =>
      simp only [step, next, reorder]
      split <;> rfl

theorem run_cfg (events : List ManagerEvent) : (m.run events).cfg = m.cfg := by
  refine Run.runFrom_preserves (P := fun s : Manager => s.cfg = m.cfg) _ ?_ rfl events
  intro s event same
  exact (s.step_cfg event).trans same

/-- Loading starts without a single task. -/
theorem new_active (cfg : Config) (seed : UInt64) (snapshot : HashMap PeerAddr Entry)
    (banlist : Banlist) : (new cfg seed snapshot banlist).book.active = ∅ := rfl

end Manager

end P2PObserver
