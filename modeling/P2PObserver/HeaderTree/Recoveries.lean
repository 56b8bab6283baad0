import P2PObserver.HeaderTree.Frame
import P2PObserver.HeaderTree.Locator
import P2PObserver.HeaderTree.Networks
import P2PObserver.Lib.Throttle

/-! # Asking for missing blocks

`recovery_due` is a throttle for each block. Calls about other blocks and insertions come
between its calls; only the block's own acceptance makes it start anew.
-/

namespace P2PObserver

variable {H : Type} [LinearOrder H] {net : Network H}

namespace HeaderTree

/-! ## Insertions do not read what is out -/

omit [LinearOrder H] in
/-- The tree with other requests out. -/
def withRecovery (t : HeaderTree H) (recovery : HashMap H Recovery) : HeaderTree H :=
  { t with recovery }

variable (t : HeaderTree H) (recovery : HashMap H Recovery)

section Fields

omit [LinearOrder H]

@[simp] theorem withRecovery_headers : (t.withRecovery recovery).headers = t.headers := rfl
@[simp] theorem withRecovery_tip : (t.withRecovery recovery).tip = t.tip := rfl
@[simp] theorem withRecovery_tipHeight : (t.withRecovery recovery).tipHeight = t.tipHeight := rfl
@[simp] theorem withRecovery_tipWork : (t.withRecovery recovery).tipWork = t.tipWork := rfl
@[simp] theorem withRecovery_rejected : (t.withRecovery recovery).rejected = t.rejected := rfl

@[simp] theorem withRecovery_checkpoints :
    (t.withRecovery recovery).checkpoints = t.checkpoints := rfl

@[simp] theorem withRecovery_reachedCheckpoint :
    (t.withRecovery recovery).reachedCheckpoint = t.reachedCheckpoint := rfl

@[simp] theorem withRecovery_rejectedOrder :
    (t.withRecovery recovery).rejectedOrder = t.rejectedOrder := rfl

end Fields

theorem forgetOldest_withRecovery (fuel : Nat) (t : HeaderTree H) :
    (t.withRecovery recovery).forgetOldest fuel = (t.forgetOldest fuel).withRecovery recovery := by
  induction fuel generalizing t with
  | zero => rfl
  | succ fuel ih =>
      by_cases full : REJECTED_REMEMBERED < HashMap.size t.rejected
      · have full' : REJECTED_REMEMBERED < HashMap.size (t.withRecovery recovery).rejected := full
        rw [forgetOldest, forgetOldest, if_pos full, if_pos full', withRecovery_rejectedOrder]
        split
        · rfl
        · rename_i oldest _
          split
          · rfl
          · rename_i hash _
            exact ih { t with
              rejectedOrder := t.rejectedOrder.erase oldest
              rejected := t.rejected.erase hash }
      · have fits : ¬ REJECTED_REMEMBERED < HashMap.size (t.withRecovery recovery).rejected := full
        rw [forgetOldest, forgetOldest, if_neg full, if_neg fits]

theorem rememberRejected_withRecovery (hash : H) (reason : HeaderError) :
    (t.withRecovery recovery).rememberRejected hash reason =
      (t.rememberRejected hash reason).withRecovery recovery := by
  by_cases known : hash ∈ t.rejected
  · have known' : hash ∈ (t.withRecovery recovery).rejected := known
    rw [rememberRejected, rememberRejected, if_pos known, if_pos known']
  · have new : hash ∉ (t.withRecovery recovery).rejected := known
    rw [rememberRejected, rememberRejected, if_neg known, if_neg new]
    exact forgetOldest_withRecovery recovery _ { t.nextRejectedSeq.2 with
      rejected := t.rejected.insert hash (reason, t.nextRejectedSeq.1)
      rejectedOrder := t.rejectedOrder.insert t.nextRejectedSeq.1 hash }

theorem touchRejected_withRecovery (hash : H) :
    (t.withRecovery recovery).touchRejected hash =
      (t.touchRejected hash).withRecovery recovery := by
  simp only [touchRejected, nextRejectedSeq, withRecovery_rejected]
  split <;> rfl

theorem refuseUnplaced_withRecovery (header : Header H) :
    (t.withRecovery recovery).refuseUnplaced net header =
      ((t.refuseUnplaced net header).1.withRecovery recovery, (t.refuseUnplaced net header).2) := by
  have same : (t.withRecovery recovery).rejectionOf header.prevBlockhash =
      t.rejectionOf header.prevBlockhash := rfl
  have weaker : (t.withRecovery recovery).weakerThanOurTip net header =
      t.weakerThanOurTip net header := rfl
  simp only [refuseUnplaced, same, weaker, touchRejected_withRecovery,
    rememberRejected_withRecovery]
  split
  · rfl
  · split <;> rfl

theorem walkBack_withRecovery (steps : Nat) : ∀ hash : H,
    (t.withRecovery recovery).walkBack hash steps = t.walkBack hash steps := by
  induction steps with
  | zero => exact fun hash => rfl
  | succ steps ih =>
      intro hash
      simp only [walkBack, ih]
      rfl

theorem validateHeader_withRecovery (header : Header H) (height : Nat) (parent : HeaderEntry H) :
    (t.withRecovery recovery).validateHeader net header height parent =
      t.validateHeader net header height parent := by
  simp only [validateHeader, expectedBitsAt, walkBack_withRecovery]
  rfl

theorem rebuildBestChain_withRecovery :
    (t.withRecovery recovery).rebuildBestChain =
      t.rebuildBestChain.withRecovery recovery := by
  simp only [rebuildBestChain, withRecovery_headers, withRecovery_tip, withRecovery_tipHeight]
  split <;> rfl

theorem replaceTip_withRecovery :
    (t.withRecovery recovery).replaceTip = t.replaceTip.withRecovery recovery := by
  by_cases held : t.tip ∈ t.headers
  · have held' : (t.withRecovery recovery).tip ∈ (t.withRecovery recovery).headers := held
    rw [replaceTip, replaceTip, if_pos held, if_pos held']
  · have pruned : (t.withRecovery recovery).tip ∉ (t.withRecovery recovery).headers := held
    rw [replaceTip, replaceTip, if_neg held, if_neg pruned, withRecovery_headers]
    split <;> rfl

theorem pruneBelowCheckpoint_withRecovery :
    (t.withRecovery recovery).pruneBelowCheckpoint =
      t.pruneBelowCheckpoint.withRecovery recovery := by
  simp only [pruneBelowCheckpoint, withRecovery_checkpoints, withRecovery_reachedCheckpoint,
    withRecovery_headers]
  split
  · rfl
  · split
    · rfl
    · split
      · rename_i drops
        rw [← rebuildBestChain_withRecovery, ← replaceTip_withRecovery]
        exact if_pos drops
      · rename_i keeps
        exact if_neg keeps

theorem noteCheckpoint_withRecovery (hash : H) (height : Nat) :
    (t.withRecovery recovery).noteCheckpoint hash height =
      (t.noteCheckpoint hash height).withRecovery recovery := by
  simp only [noteCheckpoint, withRecovery_checkpoints, withRecovery_reachedCheckpoint]
  split
  · rename_i reached
    have pruned := pruneBelowCheckpoint_withRecovery { t with reachedCheckpoint := some height }
      recovery
    exact (if_pos reached).trans pruned
  · rename_i unreached
    exact if_neg unreached

theorem accept_withRecovery (header : Header H) (parent : HeaderEntry H) :
    (t.withRecovery recovery).accept net header parent =
      (t.accept net header parent).withRecovery (recovery.erase (net.blockHash header)) := by
  have noted := noteCheckpoint_withRecovery
    { t with
      headers := t.headers.insert (net.blockHash header)
        ⟨header, parent.height + 1, parent.chainWork + net.work header⟩
      recovery := t.recovery.erase (net.blockHash header) }
    (recovery.erase (net.blockHash header)) (net.blockHash header) (parent.height + 1)
  simp only [withRecovery] at noted
  simp only [accept, withRecovery, noted]
  split <;> rfl

/-- Inserting a header ends the requests out for it if it is accepted, and neither reads nor
    writes any others. -/
theorem insertInner_withRecovery (header : Header H) :
    (t.withRecovery recovery).insertInner net header =
      ((t.insertInner net header).1.withRecovery
        (if (t.insertInner net header).2 = .ok true then recovery.erase (net.blockHash header)
          else recovery), (t.insertInner net header).2) := by
  by_cases known : net.blockHash header ∈ t.headers
  · have known' : net.blockHash header ∈ (t.withRecovery recovery).headers := known
    rw [insertInner, insertInner, if_pos known, if_pos known']
    rfl
  · have unknown : net.blockHash header ∉ (t.withRecovery recovery).headers := known
    rw [insertInner, insertInner, if_neg known, if_neg unknown, withRecovery_headers]
    cases held : t.headers.lookup header.prevBlockhash with
    | none =>
        simp only [refuseUnplaced_withRecovery]
        rfl
    | some parent =>
        have either : (∃ reason, t.validateHeader net header (parent.height + 1) parent =
              .error reason) ∨
            t.validateHeader net header (parent.height + 1) parent = .ok () := by
          cases t.validateHeader net header (parent.height + 1) parent with
          | error reason => exact .inl ⟨reason, rfl⟩
          | ok => exact .inr rfl
        rcases either with ⟨reason, said⟩ | said
        · simp only [validateHeader_withRecovery, said, rememberRejected_withRecovery]
          rfl
        · simp only [validateHeader_withRecovery, said, accept_withRecovery]
          rfl

/-- What an insertion leaves of the requests out. -/
theorem insertInner_recovery (header : Header H) :
    (t.insertInner net header).1.recovery =
      if (t.insertInner net header).2 = .ok true then t.recovery.erase (net.blockHash header)
      else t.recovery :=
  congrArg (fun step => step.1.recovery) (insertInner_withRecovery t t.recovery header)

theorem noteCheckpoint_recovery (hash : H) (height : Nat) :
    (t.noteCheckpoint hash height).recovery = t.recovery := by
  have noted := congrArg (·.recovery) (noteCheckpoint_withRecovery t t.recovery hash height)
  exact noted

/-- The blocks a batch of headers adds to the tree. -/
def acceptedBlocks (net : Network H) (offered : List (HeaderTree H × Header H)) : List H :=
  offered.filterMap fun offer =>
    if (offer.1.insertInner net offer.2).2 = .ok true then some (net.blockHash offer.2) else none

/-- Two trees that differ at most in the requests out. -/
def SameButRecovery (t t' : HeaderTree H) : Prop := t' = t.withRecovery t'.recovery

omit [LinearOrder H] in
theorem SameButRecovery.set {t t' : HeaderTree H} (same : SameButRecovery t t')
    (recovery recovery' : HashMap H Recovery) :
    SameButRecovery (t.withRecovery recovery) (t'.withRecovery recovery') := by
  rw [SameButRecovery, same]
  rfl

omit [LinearOrder H] in
theorem SameButRecovery.tip {t t' : HeaderTree H} (same : SameButRecovery t t') :
    t'.tip = t.tip := by
  rw [same]
  rfl

theorem SameButRecovery.insertEach (net : Network H) {t t' : HeaderTree H}
    (same : SameButRecovery t t') (headers : List (Header H)) :
    SameButRecovery (t.insertEach net headers).1 (t'.insertEach net headers).1 ∧
      acceptedBlocks net (t'.offersEach net headers) =
        acceptedBlocks net (t.offersEach net headers) := by
  induction headers generalizing t t' with
  | nil => exact ⟨same, rfl⟩
  | cons header rest ih =>
      have step := @insertInner_withRecovery H _ net t t'.recovery header
      rw [← same] at step
      have next : SameButRecovery (t.insertInner net header).1 (t'.insertInner net header).1 := by
        rw [SameButRecovery, step]
        rfl
      obtain ⟨same', blocks⟩ := ih next
      rw [insertEach_cons_tree, insertEach_cons_tree]
      refine ⟨same', ?_⟩
      rw [offersEach, offersEach, acceptedBlocks, acceptedBlocks, List.filterMap_cons,
        List.filterMap_cons, ← acceptedBlocks, ← acceptedBlocks, blocks, step]

theorem SameButRecovery.insertBatch {t t' : HeaderTree H} (same : SameButRecovery t t')
    (headers : List (Header H)) :
    SameButRecovery (t.insertBatch net headers).1 (t'.insertBatch net headers).1 := by
  have each := (same.insertEach net headers).1
  have tip : t'.tip = t.tip := same.tip
  have tip' : (t'.insertEach net headers).1.tip = (t.insertEach net headers).1.tip := each.tip
  have left : (t.insertBatch net headers).1 =
      if (t.insertEach net headers).1.tip = t.tip then (t.insertEach net headers).1
      else (t.insertEach net headers).1.rebuildBestChain := rfl
  have right : (t'.insertBatch net headers).1 =
      if (t'.insertEach net headers).1.tip = t'.tip then (t'.insertEach net headers).1
      else (t'.insertEach net headers).1.rebuildBestChain := rfl
  rw [left, right, tip, tip']
  split
  · exact each
  · have rebuilt := rebuildBestChain_withRecovery (t.insertEach net headers).1
      (t'.insertEach net headers).1.recovery
    rw [← each] at rebuilt
    rw [rebuilt]
    rfl

/-! ## One call -/

/-- The requests out for a block that are not over. -/
def requestsOut (hash : H) (now : Nat) : Option Recovery :=
  (t.recovery.lookup hash).filter fun r => now - r.started < RECOVERY_INTERVAL

theorem lookup_requestsOut (hash : H) (now : Nat) :
    (HashMap.retain (fun _ r => decide (now - r.started < RECOVERY_INTERVAL)) t.recovery).lookup
      hash = t.requestsOut hash now :=
  HashMap.lookup_retain ..

/-- What a call reads of the requests out for its block. -/
theorem recoveryDue_fst (missing : H) (proven : Bool) (now : Nat) :
    (t.recoveryDue missing proven now).1 =
      match t.requestsOut missing now with
      | none => true
      | some r => proven && decide (r.requests < RECOVERY_PEERS) := by
  simp only [recoveryDue, lookup_requestsOut]
  cases t.requestsOut missing now with
  | none => rfl
  | some r =>
      simp only
      split
      · rename_i asked
        exact asked.symm
      · rename_i denied
        exact (Bool.eq_false_of_not_eq_true denied).symm

/-- What it writes for its block. -/
theorem recoveryDue_lookup (missing : H) (proven : Bool) (now : Nat) :
    (t.recoveryDue missing proven now).2.recovery.lookup missing =
      match t.requestsOut missing now with
      | none => some ⟨now, 1⟩
      | some r =>
          if proven && decide (r.requests < RECOVERY_PEERS) then some ⟨r.started, r.requests + 1⟩
          else some r := by
  simp only [recoveryDue, lookup_requestsOut]
  cases going : t.requestsOut missing now with
  | none => exact AList.lookup_insert _
  | some r =>
      simp only
      split
      · exact AList.lookup_insert _
      · exact (t.lookup_requestsOut missing now).trans going

/-- For another block it only drops what is over. -/
theorem recoveryDue_lookup_ne {missing hash : H} (other : hash ≠ missing) (proven : Bool)
    (now : Nat) :
    (t.recoveryDue missing proven now).2.recovery.lookup hash = t.requestsOut hash now := by
  rw [← lookup_requestsOut]
  simp only [recoveryDue]
  split
  · exact AList.lookup_insert_ne other
  · split
    · exact AList.lookup_insert_ne other
    · rfl

theorem recoveryDue_snd (missing : H) (proven : Bool) (now : Nat) :
    (t.recoveryDue missing proven now).2 =
      t.withRecovery (t.recoveryDue missing proven now).2.recovery := by
  unfold recoveryDue
  simp only
  split
  · rfl
  · split <;> rfl

end HeaderTree

/-! ## Histories -/

/-- What happens to the tree's requests: a call about a missing block, or a batch of headers. -/
inductive RecoveryEvent (H : Type) where
  | due (missing : H) (proven : Bool) (now : Nat)
  | insert (headers : List (Header H))

/-- What there is to note of an event: an answer, or a block accepted. -/
inductive Noted (H : Type) where
  | asked (missing : H) (asked : Throttle.Asked)
  | accepted (hash : H)
  deriving DecidableEq, Repr

namespace RecoveryEvent

def next (net : Network H) (t : HeaderTree H) : RecoveryEvent H → HeaderTree H
  | .due missing proven now => (t.recoveryDue missing proven now).2
  | .insert headers => (t.insertBatch net headers).1

def report (net : Network H) (t : HeaderTree H) : RecoveryEvent H → List (Noted H)
  | .due missing proven now => [.asked missing ⟨proven, now, (t.recoveryDue missing proven now).1⟩]
  | .insert headers => (HeaderTree.acceptedBlocks net (t.offersEach net headers)).map .accepted

/-- When a call was made. -/
def time? : RecoveryEvent H → Option Nat
  | .due _ _ now => some now
  | .insert _ => none

/-- Not a call about another block. -/
def concerns (hash : H) : RecoveryEvent H → Bool
  | .due missing _ _ => missing == hash
  | .insert _ => true

end RecoveryEvent

/-- The tree and the notes after a run of events on a new tree. -/
def recoveryRun (net : Network H) (checkpoints : List (Checkpoint H))
    (events : List (RecoveryEvent H)) : Run.Logged (HeaderTree H) (Noted H) :=
  Run.runFrom (Run.Logged.step (RecoveryEvent.next net) (RecoveryEvent.report net))
    ⟨HeaderTree.withCheckpoints net checkpoints, []⟩ events

/-- The calls about a block since it was last accepted. -/
def sinceAccepted (hash : H) (history : List (Noted H)) : List Throttle.Asked :=
  history.foldl (fun asks note =>
    match note with
    | .asked missing asked => if missing = hash then asks ++ [asked] else asks
    | .accepted accepted => if accepted = hash then [] else asks) []

/-- The notes but those of calls about other blocks. -/
def heard (hash : H) (history : List (Noted H)) : List (Noted H) :=
  history.filter fun note =>
    match note with
    | .asked missing _ => missing == hash
    | .accepted _ => true

theorem sinceAccepted_asked (hash missing : H) (history : List (Noted H)) (a : Throttle.Asked) :
    sinceAccepted hash (history ++ [.asked missing a]) =
      if missing = hash then sinceAccepted hash history ++ [a] else sinceAccepted hash history :=
  List.foldl_append ..

theorem sinceAccepted_accepted (hash accepted : H) (history : List (Noted H)) :
    sinceAccepted hash (history ++ [.accepted accepted]) =
      if accepted = hash then [] else sinceAccepted hash history :=
  List.foldl_append ..

/-- When the calls of a history were made. -/
def askTimes (history : List (Noted H)) : List Nat :=
  history.filterMap fun note =>
    match note with
    | .asked _ asked => some asked.now
    | .accepted _ => none

/-- The map's entry for a round. -/
def recoveryOf (r : Throttle.Round) : Recovery := ⟨r.started, r.requests⟩

theorem filter_recoveryOf (out : Option Throttle.Round) (now : Nat) :
    ((out.map recoveryOf).filter fun r => now - r.started < RECOVERY_INTERVAL) =
      (out.filter fun r => now - r.started < RECOVERY_INTERVAL).map recoveryOf :=
  Option.filter_map

/-- The tree's requests are those of a throttle for each block. -/
structure Matches (t : HeaderTree H) (history : List (Noted H)) : Prop where
  throttled : ∀ hash,
    Throttle.Throttled RECOVERY_INTERVAL RECOVERY_PEERS (sinceAccepted hash history)
  out : ∀ hash now, (∀ before ∈ askTimes history, before ≤ now) →
    t.requestsOut hash now =
      (Throttle.outAt RECOVERY_INTERVAL (sinceAccepted hash history) now).map recoveryOf

namespace Matches

variable {t : HeaderTree H} {history : List (Noted H)}

/-- The answer is the throttle's. -/
theorem answer (M : Matches t history) (missing : H) (proven : Bool) {now : Nat}
    (later : ∀ before ∈ askTimes history, before ≤ now) :
    (t.recoveryDue missing proven now).1 = Throttle.allows RECOVERY_PEERS
      (Throttle.outAt RECOVERY_INTERVAL (sinceAccepted missing history) now) proven := by
  rw [HeaderTree.recoveryDue_fst, M.out missing now later]
  cases Throttle.outAt RECOVERY_INTERVAL (sinceAccepted missing history) now <;> rfl

theorem due (M : Matches t history) {missing : H} {proven : Bool} {now : Nat}
    (later : ∀ before ∈ askTimes history, before ≤ now) :
    Matches (t.recoveryDue missing proven now).2
      (history ++ [.asked missing ⟨proven, now, (t.recoveryDue missing proven now).1⟩]) := by
  have answer := M.answer missing proven later
  constructor
  · intro hash
    rw [sinceAccepted_asked]
    split
    · rename_i same
      subst same
      exact .concat (M.throttled _) answer
    · exact M.throttled hash
  · intro hash at_time upTo
    have le : now ≤ at_time := by
      apply upTo
      simp [askTimes]
    have before := M.out hash now later
    rw [sinceAccepted_asked, HeaderTree.requestsOut]
    split
    · rename_i same
      subst same
      rw [Throttle.outAt_concat _ le, HeaderTree.recoveryDue_lookup, before, answer]
      cases Throttle.outAt RECOVERY_INTERVAL (sinceAccepted missing history) now with
      | none => exact filter_recoveryOf (some ⟨now, []⟩) at_time
      | some r =>
          simp only [Throttle.allows, Option.map_some]
          split
          · rename_i granted
            have same : recoveryOf ⟨r.started, r.more ++ [now]⟩ =
                ⟨(recoveryOf r).started, (recoveryOf r).requests + 1⟩ := by
              simp [recoveryOf, Throttle.Round.requests]
            rw [← same]
            exact (filter_recoveryOf (some ⟨r.started, r.more ++ [now]⟩) at_time).trans
              (congrArg _ (if_pos granted).symm)
          · rename_i denied
            exact (filter_recoveryOf (some r) at_time).trans (congrArg _ (if_neg denied).symm)
    · rename_i other
      rw [HeaderTree.recoveryDue_lookup_ne _ (Ne.symm other), before, Throttle.outAt_later _ le]
      exact filter_recoveryOf _ at_time

theorem accepted (M : Matches t history) (hash : H) :
    Matches (t.withRecovery (t.recovery.erase hash)) (history ++ [.accepted hash]) := by
  constructor
  · intro hash'
    rw [sinceAccepted_accepted]
    split
    · exact .nil
    · exact M.throttled hash'
  · intro hash' now upTo
    rw [sinceAccepted_accepted, HeaderTree.requestsOut]
    split
    · rename_i same
      subst same
      have gone : (t.withRecovery (t.recovery.erase hash)).recovery.lookup hash = none :=
        AList.lookup_erase ..
      rw [gone]
      rfl
    · rename_i other
      have kept : (t.withRecovery (t.recovery.erase hash)).recovery.lookup hash' =
          t.recovery.lookup hash' := AList.lookup_erase_ne (Ne.symm other)
      rw [kept]
      exact M.out hash' now fun before member => upTo before (by simpa [askTimes] using member)

/-- Only what a tree has out matters. -/
theorem of_recovery {t' : HeaderTree H} (M : Matches t history) (same : t'.recovery = t.recovery) :
    Matches t' history := by
  refine ⟨M.throttled, fun hash now upTo => ?_⟩
  rw [HeaderTree.requestsOut, same]
  exact M.out hash now upTo

theorem insertInner (M : Matches t history) (net : Network H) (header : Header H) :
    Matches (t.insertInner net header).1
      (history ++ (HeaderTree.acceptedBlocks net [(t, header)]).map .accepted) := by
  have left := @HeaderTree.insertInner_recovery H _ net t header
  rw [HeaderTree.acceptedBlocks, List.filterMap_cons, List.filterMap_nil]
  split at left
  · rename_i said
    rw [if_pos said]
    exact (M.accepted (net.blockHash header)).of_recovery left
  · rename_i said
    rw [if_neg said]
    rw [List.map_nil, List.append_nil]
    exact M.of_recovery left

theorem insertBatch (M : Matches t history) (headers : List (Header H)) :
    Matches (t.insertBatch net headers).1
      (history ++ (HeaderTree.acceptedBlocks net (t.offersEach net headers)).map .accepted) := by
  obtain ⟨bestChain, eq⟩ := HeaderTree.insertBatch_eq net t headers
  have one : ∀ t offered header, Matches t
        (history ++ (HeaderTree.acceptedBlocks net offered).map .accepted) →
      Matches (t.insertInner net header).1
        (history ++ (HeaderTree.acceptedBlocks net (offered ++ [(t, header)])).map .accepted) := by
    intro t offered header M
    have next := M.insertInner net header
    rw [List.append_assoc, ← List.map_append] at next
    rw [HeaderTree.acceptedBlocks, List.filterMap_append]
    exact next
  have begin : Matches t (history ++ (HeaderTree.acceptedBlocks net []).map .accepted) := by
    simpa [HeaderTree.acceptedBlocks] using M
  rw [eq]
  exact (HeaderTree.insertEach_induct one [] begin headers).of_recovery rfl

end Matches

/-! ## Runs -/

section Runs

variable (net) (checkpoints : List (Checkpoint H))

theorem recoveryRun_concat (events : List (RecoveryEvent H)) (e : RecoveryEvent H) :
    recoveryRun net checkpoints (events ++ [e]) =
      ⟨e.next net (recoveryRun net checkpoints events).state,
        (recoveryRun net checkpoints events).history ++
          e.report net (recoveryRun net checkpoints events).state⟩ := by
  rw [recoveryRun, Run.runFrom_append]
  rfl

omit [LinearOrder H] in
theorem askTimes_append (history more : List (Noted H)) :
    askTimes (history ++ more) = askTimes history ++ askTimes more :=
  List.filterMap_append ..

theorem askTimes_recoveryRun (events : List (RecoveryEvent H)) :
    askTimes (recoveryRun net checkpoints events).history =
      events.filterMap RecoveryEvent.time? := by
  induction events using List.reverseRecOn with
  | nil => rfl
  | append_singleton events e ih =>
      rw [recoveryRun_concat, askTimes_append, ih, List.filterMap_append]
      congr 1
      cases e with
      | due missing proven now => rfl
      | insert headers => simp [RecoveryEvent.report, RecoveryEvent.time?, askTimes]

theorem recoveryRun_matches (events : List (RecoveryEvent H))
    (sorted : (events.filterMap RecoveryEvent.time?).Pairwise (· ≤ ·)) :
    Matches (recoveryRun net checkpoints events).state
      (recoveryRun net checkpoints events).history := by
  induction events using List.reverseRecOn with
  | nil =>
      refine ⟨fun hash => .nil, fun hash now _ => ?_⟩
      have fresh : (HeaderTree.withCheckpoints net checkpoints).recovery = ∅ :=
        HeaderTree.noteCheckpoint_recovery ..
      have missing : (recoveryRun net checkpoints []).state.recovery.lookup hash = Option.none := by
        rw [recoveryRun, Run.runFrom_nil, fresh]
        rfl
      rw [HeaderTree.requestsOut, missing]
      rfl
  | append_singleton events e ih =>
      rw [List.filterMap_append, List.pairwise_append] at sorted
      have M := ih sorted.1
      rw [recoveryRun_concat]
      cases e with
      | due missing proven now =>
          apply M.due
          intro before member
          rw [askTimes_recoveryRun] at member
          exact sorted.2.2 before member now List.mem_cons_self
      | insert headers => exact M.insertBatch headers

theorem heard_append (hash : H) (history more : List (Noted H)) :
    heard hash (history ++ more) = heard hash history ++ heard hash more :=
  List.filter_append ..

/-- What is left out is not about the block. -/
theorem sinceAccepted_heard (hash : H) (history : List (Noted H)) :
    sinceAccepted hash (heard hash history) = sinceAccepted hash history := by
  induction history using List.reverseRecOn with
  | nil => rfl
  | append_singleton history note ih =>
      rw [heard_append]
      cases note with
      | accepted accepted =>
          have kept : heard hash [.accepted accepted] = [.accepted accepted] := rfl
          rw [kept, sinceAccepted_accepted, sinceAccepted_accepted, ih]
      | asked missing a =>
          by_cases same : missing = hash
          · have kept : heard hash [.asked missing a] = [.asked missing a] := by
              simp [heard, same]
            rw [kept, sinceAccepted_asked, sinceAccepted_asked, ih]
          · have dropped : heard hash [.asked missing a] = [] := by
              simp [heard, same]
            rw [dropped, List.append_nil, sinceAccepted_asked, if_neg same, ih]

/-- Without the calls about other blocks the rest of the run is the same. -/
theorem recoveryRun_concerns (hash : H) (events : List (RecoveryEvent H))
    (sorted : (events.filterMap RecoveryEvent.time?).Pairwise (· ≤ ·)) :
    HeaderTree.SameButRecovery
        (recoveryRun net checkpoints (events.filter (RecoveryEvent.concerns hash))).state
        (recoveryRun net checkpoints events).state ∧
      (recoveryRun net checkpoints (events.filter (RecoveryEvent.concerns hash))).history =
        heard hash (recoveryRun net checkpoints events).history := by
  induction events using List.reverseRecOn with
  | nil => exact ⟨rfl, rfl⟩
  | append_singleton events e ih =>
      rw [List.filterMap_append, List.pairwise_append] at sorted
      obtain ⟨same, history⟩ := ih sorted.1
      rw [List.filter_append, recoveryRun_concat]
      cases e with
      | insert headers =>
          have kept : [RecoveryEvent.insert headers].filter (RecoveryEvent.concerns hash) =
              [RecoveryEvent.insert headers] := rfl
          rw [kept, recoveryRun_concat]
          have blocks := (same.insertEach net headers).2
          refine ⟨same.insertBatch headers, ?_⟩
          have all : heard hash ((RecoveryEvent.insert headers).report net
                (recoveryRun net checkpoints events).state) =
              (RecoveryEvent.insert headers).report net
                (recoveryRun net checkpoints events).state := by
            simp [heard, RecoveryEvent.report, List.filter_eq_self]
          rw [heard_append, ← history, all, RecoveryEvent.report, RecoveryEvent.report, blocks]
      | due missing proven now =>
          by_cases own : missing = hash
          · have kept : [RecoveryEvent.due missing proven now].filter
                (RecoveryEvent.concerns hash) = [RecoveryEvent.due missing proven now] := by
              simp [RecoveryEvent.concerns, own]
            rw [kept, recoveryRun_concat]
            constructor
            · rw [RecoveryEvent.next, RecoveryEvent.next, HeaderTree.recoveryDue_snd,
                HeaderTree.recoveryDue_snd (recoveryRun net checkpoints events).state]
              exact same.set _ _
            · have part : (events.filter (RecoveryEvent.concerns hash)).Sublist events :=
                List.filter_sublist
              have fewer := part.filterMap RecoveryEvent.time?
              have M := recoveryRun_matches net checkpoints events sorted.1
              have M' := recoveryRun_matches net checkpoints _ (sorted.1.sublist fewer)
              have later : ∀ before ∈ events.filterMap RecoveryEvent.time?, before ≤ now :=
                fun before member => sorted.2.2 before member now List.mem_cons_self
              have answer := M.answer missing proven (askTimes_recoveryRun net checkpoints events ▸
                later)
              have answer' := M'.answer missing proven (askTimes_recoveryRun net checkpoints _ ▸
                fun before member => later before (fewer.subset member))
              rw [own, history, sinceAccepted_heard] at answer'
              rw [own] at answer
              have heard_it : heard hash ((RecoveryEvent.due missing proven now).report net
                  (recoveryRun net checkpoints events).state) =
                  (RecoveryEvent.due missing proven now).report net
                  (recoveryRun net checkpoints events).state := by
                simp [heard, RecoveryEvent.report, own]
              rw [heard_append, history, heard_it, RecoveryEvent.report, RecoveryEvent.report, own,
                answer, answer']
          · have dropped : [RecoveryEvent.due missing proven now].filter
                (RecoveryEvent.concerns hash) = [] := by
              simp [RecoveryEvent.concerns, own]
            rw [dropped, List.append_nil]
            constructor
            · have set := same.set
                (recoveryRun net checkpoints (events.filter (RecoveryEvent.concerns hash))).state.recovery
                ((recoveryRun net checkpoints events).state.recoveryDue missing proven now).2.recovery
              rw [← HeaderTree.recoveryDue_snd] at set
              exact set
            · have silent : heard hash ((RecoveryEvent.due missing proven now).report net
                  (recoveryRun net checkpoints events).state) = [] := by
                simp [heard, RecoveryEvent.report, own]
              rw [heard_append, silent, List.append_nil]
              exact history

theorem sinceAccepted_times (hash : H) (history : List (Noted H)) :
    ((sinceAccepted hash history).map (·.now)).Sublist (askTimes history) := by
  induction history using List.reverseRecOn with
  | nil => exact .slnil
  | append_singleton history note ih =>
      rw [askTimes_append]
      cases note with
      | accepted accepted =>
          rw [sinceAccepted_accepted]
          split
          · exact List.nil_sublist _
          · exact ih.trans (List.sublist_append_left ..)
      | asked missing a =>
          rw [sinceAccepted_asked]
          split
          · rw [List.map_append]
            exact ih.append (List.Sublist.refl _)
          · exact ih.trans (List.sublist_append_left ..)

end Runs

/-- What is granted for a block since it was last accepted. -/
structure RecoveryThrottle (net : Network H) (checkpoints : List (Checkpoint H))
    (events : List (RecoveryEvent H)) (hash : H) (asks : List Throttle.Asked) : Prop where
  rounds : Throttle.Paced RECOVERY_INTERVAL RECOVERY_PEERS (Throttle.rounds RECOVERY_INTERVAL asks)
  grants : (Throttle.rounds RECOVERY_INTERVAL asks).reverse.flatMap Throttle.Round.times =
    Throttle.grantTimes asks
  window : ∀ first width, width < RECOVERY_INTERVAL →
    ((Throttle.grantTimes asks).filter fun time => first ≤ time ∧ time ≤ first + width).length ≤
      2 * RECOVERY_PEERS - 1
  unproven : ∀ before a after, asks = before ++ a :: after → a.proven = false →
    a.granted = true → Throttle.outAt RECOVERY_INTERVAL before a.now = none
  first : ∀ before a after, asks = before ++ a :: after →
    Throttle.outAt RECOVERY_INTERVAL before a.now = none → a.granted = true
  alone : (recoveryRun net checkpoints (events.filter (RecoveryEvent.concerns hash))).history =
    heard hash (recoveryRun net checkpoints events).history

/-- In every run whose calls come with times that never fall back, for every block. -/
theorem run_recoveryThrottle (net : Network H) (checkpoints : List (Checkpoint H))
    (events : List (RecoveryEvent H))
    (sorted : (events.filterMap RecoveryEvent.time?).Pairwise (· ≤ ·)) (hash : H) :
    RecoveryThrottle net checkpoints events hash
      (sinceAccepted hash (recoveryRun net checkpoints events).history) := by
  have T := (recoveryRun_matches net checkpoints events sorted).throttled hash
  have rising := sorted
  rw [← askTimes_recoveryRun net checkpoints] at rising
  have asked_rising := List.pairwise_map.mp (rising.sublist (sinceAccepted_times hash _))
  have paced := T.paced (by decide) asked_rising
  constructor
  case rounds => exact paced
  case grants => exact Throttle.rounds_times ..
  case window =>
    intro first width short
    rw [← Throttle.rounds_times RECOVERY_INTERVAL]
    exact paced.within_le short
  case unproven =>
    intro before a after split unproven granted
    have told := T.split split
    rw [granted, unproven] at told
    cases going : Throttle.outAt RECOVERY_INTERVAL before a.now with
    | none => rfl
    | some r =>
        rw [going] at told
        cases told
  case first =>
    intro before a after split idle
    rw [T.split split, idle]
    rfl
  case alone => exact (recoveryRun_concerns net checkpoints hash events sorted).2

/-- Three grants of a round, a fourth call in it and the next round, around a batch. -/
theorem run_recoveryThrottle_mainnet :
    RecoveryThrottle Params.mainnet.network []
      [.due [7] false 0, .due [7] true 1, .insert [Params.mine Params.mainnet.genesis 1 2 3],
        .due [8] true 2, .due [7] true 3, .due [7] true 4, .due [7] false (10 * 10 ^ 9)] [7]
      (sinceAccepted [7] (recoveryRun Params.mainnet.network []
        [.due [7] false 0, .due [7] true 1, .insert [Params.mine Params.mainnet.genesis 1 2 3],
          .due [8] true 2, .due [7] true 3, .due [7] true 4,
          .due [7] false (10 * 10 ^ 9)]).history) := by
  apply run_recoveryThrottle
  decide

end P2PObserver
