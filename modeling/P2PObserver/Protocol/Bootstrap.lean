import P2PObserver.Protocol.V1Only

/-! # The header sync at the start

A session that ran is an attempt that succeeded, however it ended. So the sync is over with the
first session, and is complete exactly when that one was.
-/

namespace P2PObserver

open Program Ledger

section Sync

variable {H : Type} [SocketText] [DecidableEq H] (net : Network H) (codec : AddrCodec)
  (cfg : ProtocolConfig) (fuel : Nat)

/-- What an attempt, a round or the whole sync leaves. -/
def Ledger.Tried {R : Type} (found : R → Prop) (s : Ledger) : Except AnyError R → Prop
  | .ok r => (found r → s.first = .over s.synced) ∧ (¬found r → s.Fresh)
  | .error e => e.isSyncComplete = false ∧ s.Fresh

theorem wp_bootstrapAttempt (addr : PeerAddr) {s : Ledger} (fresh : s.Fresh) :
    wp (monitor cfg none) (bootstrapAttempt net codec cfg fuel addr)
      (fun s' => s'.Tried fun _ => True) s := by
  refine wp_question_bind rfl fun id => ?_
  have drawn : Fresh ((monitor cfg none).next s (.peerId : Question H) id) :=
    ⟨fresh.progress, rfl, by simp [monitor, Ledger.next, fresh.first],
      by simp [monitor, Ledger.next, fresh.synced]⟩
  apply wp_mono (wp_bootstrapAttemptAs cfg net codec fuel addr (by simp) drawn rfl)
  intro s' end_ reached
  cases end_ with
  | ok connectedAt => exact ⟨fun _ => reached.2.2, fun never => absurd trivial never⟩
  | error e => exact reached

/-- A round stops at the first session, and never at an error. -/
theorem wp_bootstrapRound (peers : List PeerAddr) {s : Ledger} (fresh : s.Fresh) :
    wp (monitor cfg none) (bootstrapRound net codec cfg fuel peers)
      (fun s' end_ => ∃ done, end_ = .ok done ∧ s'.Tried (· = true) (.ok done)) s := by
  induction peers generalizing s with
  | nil => exact ⟨false, rfl, nofun, fun _ => fresh⟩
  | cons addr rest ih =>
      dsimp only [bootstrapRound]
      rw [bind_eq, wp_bind, wp_outcome]
      apply wp_mono (wp_bootstrapAttempt net codec cfg fuel addr fresh)
      intro s' end_ reached
      cases end_ with
      | ok connectedAt =>
          exact ⟨true, rfl, fun _ => reached.1 trivial, fun never => absurd rfl never⟩
      | error e =>
          obtain ⟨other, fresh⟩ := reached
          dsimp only [andThen_ok]
          rw [if_neg (by simp [other])]
          exact ih fresh

theorem wp_bootstrapRounds (peers : List PeerAddr) (rounds : Nat) {s : Ledger} (fresh : s.Fresh) :
    wp (monitor cfg none) (bootstrapRounds net codec cfg fuel peers rounds)
      (fun s' end_ => end_ = .ok () ∧ s'.first = .over s'.synced) s := by
  induction rounds generalizing s with
  | zero => trivial
  | succ rounds ih =>
      dsimp only [bootstrapRounds]
      rw [bind_eq, wp_bind]
      apply wp_mono (wp_bootstrapRound net codec cfg fuel peers fresh)
      rintro s' _ ⟨done, rfl, found, missed⟩
      dsimp only [andThen_ok]
      cases done with
      | true => exact ⟨rfl, found rfl⟩
      | false => exact ih (missed Bool.false_ne_true)

/-! ## Every run -/

/-- Whether some session of a sync ended with `SyncComplete`: an empty HEADERS, which ends it
    at once, came in. -/
def someSessionSynced (trace : List (Exchange (Question H) Answer)) : Bool :=
  trace.any fun x => emptyHeaders x.1 x.2

/-- What became of the first session of a trace. -/
def firstSession (trace : List (Exchange (Question H) Answer)) : FirstSession :=
  trace.foldl (fun first x => first.next x.1 x.2) .none

/-- The sync returns when its first session is over, and some session has ended with
    `SyncComplete` by then exactly if that first one has. -/
theorem run_bootstrapSync_iff {peers : List PeerAddr} (some_ : peers ≠ [])
    {trace : List (Exchange (Question H) Answer)}
    (run : Runs (bootstrapSync net codec cfg fuel peers) trace (some (.ok ()))) :
    (∃ synced, firstSession trace = .over synced) ∧
      (someSessionSynced trace = true ↔ firstSession trace = .over true) := by
  have filled : peers.isEmpty = false := by simpa using some_
  have fresh : (Ledger.start 0).Fresh := ⟨rfl, rfl, rfl, rfl⟩
  simp only [bootstrapSync, filled, if_false, Bool.false_eq_true] at run
  obtain ⟨-, returned⟩ := run.sound (wp_bootstrapRounds net codec _ fuel peers fuel fresh)
  obtain ⟨-, finished⟩ := returned _ rfl
  rw [after_first, after_synced] at finished
  have synced : firstSession trace = .over (someSessionSynced trace) := finished
  refine ⟨⟨_, synced⟩, ?_⟩
  rw [synced, FirstSession.over.injEq]

end Sync

/-! ## A peer that closes after the handshake -/

namespace HungUp

def version : VersionMessage :=
  { version := 70016, services := 0, timestamp := 0, receiver := ⟨0, [], 0⟩, nonce := 0,
    userAgent := "", startHeight := 0, relay := false }

/-- Everything works until the peer closes; `greeting` is what it says in the handshake. -/
def answer (greeting : Nat → NetworkMessage (List Nat)) (woken : Nat → Woken (List Nat))
    (n : Nat) : (q : Question (List Nat)) → Answer q
  | .tip => ([], 0)
  | .seen _ => false
  | .seenEach _ => []
  | .insertBatch _ => (0, none)
  | .placement _ => (none, none)
  | .rejectionOf _ => none
  | .recoveryDue .. => false
  | .buildLocator => []
  | .getHeadersFromLocator .. => []
  | .peerId => (7 : UInt64)
  | .now => (0 : ℚ)
  | .unixMs => (0 : UInt64)
  | .random => (0 : UInt64)
  | .send _ => none
  | .handshakeSend _ => .finished none
  | .handshakeRecv => .finished (.ok (greeting n))
  | .select => woken n
  | .undecodable => (0 : UInt32)
  | .socksConnect .. => .finished none
  | .tcpConnect _ => .finished none
  | .setNodelay => none
  | .setUserTimeout => none
  | .bip324Handshake => .finished none
  | .emit _ => ()
  | .gossip _ => ()
  | .lifecycle _ => ()

/-- The peer completes the handshake and closes. -/
def closes : Nat → (q : Question (List Nat)) → Answer q :=
  answer (fun n => if n = 9 then .version version else .verack) fun _ => .failed eof

/-- The peer completes the handshake and has no headers for us. -/
def synced : Nat → (q : Question (List Nat)) → Answer q :=
  answer (fun n => if n = 9 then .version version else .verack) fun _ => .message (.headers [])

end HungUp

/-- The sync is reported as complete after a session that ended with its peer closing. -/
theorem closed_not_synced : ¬ ∀ (_ : SocketText) (net : Network (List Nat))
    (trace : List (Exchange (Question (List Nat)) Answer)),
    Runs (bootstrapSync net HungUp.codec HungUp.cfg 3 [HungUp.addr]) trace (some (.ok ())) →
    someSessionSynced trace = true := by
  intro claim
  have run := runs_play HungUp.closes (@bootstrapSync _ _ (Params.network Params.mainnet)
    HungUp.codec HungUp.cfg plainText 3 [HungUp.addr]) 0
  have synced := claim plainText (Params.network Params.mainnet) _ run
  cases synced

/-- A peer that answers the first getheaders with an empty HEADERS. -/
theorem run_bootstrapSync_iff_synced :
    someSessionSynced ((@bootstrapSync _ _ (Params.network Params.mainnet) HungUp.codec
      HungUp.cfg plainText 3 [HungUp.addr]).play HungUp.synced 0).1 = true := by
  have run := runs_play HungUp.synced (@bootstrapSync _ _ (Params.network Params.mainnet)
    HungUp.codec HungUp.cfg plainText 3 [HungUp.addr]) 0
  exact (@run_bootstrapSync_iff _ plainText _ _ _ _ _ _ (by simp) _ run).2.mpr rfl

end P2PObserver
