import P2PObserver.HeaderTree.Recoveries
import P2PObserver.HeaderTree.Sightings
import P2PObserver.Protocol.HeaderSync

/-! # Announcements of blocks new to us

An announcement says a block is new to us when its lookup found it unknown. Between the lookup
and the announcement the tree's lock is released, and an inv inserts no header at all, so that
two sessions, or one, can find the same block unknown.
-/

namespace P2PObserver

open Program

variable {H : Type}

/-! ## Questions about new blocks -/

/-- The block a question announces as new to us. -/
def Question.announcedNew : Question H → List H
  | .emit event =>
      match event.event with
      | some (.blockAnnouncement announcement) =>
          if announcement.newToUs then [announcement.blockHash] else []
      | _ => []
  | _ => []

/-- Whether the headers of a message are announced. -/
def announces (syncHeaders : Bool) (hashes : List H) : Bool :=
  !syncHeaders && decide (hashes.length ≤ MAX_HEADERS_ANNOUNCED)

/-- The blocks an answer says are unknown, of those looked up to be announced. -/
def unknownIn (syncHeaders : Bool) : (q : Question H) → Answer q → List H
  | .seen hash, known => if known then [] else [hash]
  | .seenEach hashes, known =>
      if announces syncHeaders hashes then ((hashes.zip known).filter (!·.2)).map (·.1) else []
  | _, _ => []

/-- What a question is to the tree's sightings. -/
def Question.sighting (syncHeaders : Bool) : Question H → Option (HeaderTree.SightingStep H)
  | .seen hash => some (.lookUp [hash])
  | .seenEach hashes => if announces syncHeaders hashes then some (.lookUp hashes) else none
  | .insertBatch headers => some (.insert headers)
  | _ => none

/-! ## What a session announces -/

variable [LinearOrder H]

/-- How often a block may be announced as new: as often as it was found unknown. -/
def credit (syncHeaders : Bool) (hash : H) : Monitor (Question H) Answer Nat where
  ok n q := q.announcedNew.count hash ≤ n
  next n q a := n - q.announcedNew.count hash + (unknownIn syncHeaders q a).count hash

theorem sum_announcedNew_le {syncHeaders : Bool} {hash : H}
    {trace : List (Exchange (Question H) Answer)} {n : Nat}
    (accepts : (credit syncHeaders hash).Accepts n trace) :
    (trace.map fun x => x.1.announcedNew.count hash).sum ≤
      n + (trace.map fun x => (unknownIn syncHeaders x.1 x.2).count hash).sum := by
  induction trace generalizing n with
  | nil => simp
  | cons x rest ih =>
      have here : x.1.announcedNew.count hash ≤ n := accepts.1
      have later := ih accepts.2
      simp only [credit, List.map_cons, List.sum_cons] at later ⊢
      omega

theorem Question.Quiet.still {syncHeaders : Bool} {hash : H} {n : Nat} {q : Question H}
    (quiet : q.Quiet) : (credit syncHeaders hash).ok n q ∧
      ∀ a, (credit syncHeaders hash).next n q a = n := by
  cases q with
  | emit event =>
      have not_new : (Question.emit event).announcedNew = [] := by
        unfold Question.announcedNew
        dsimp only
        split
        · rename_i announcement is
          exact absurd is (quiet announcement)
        · rfl
      simp [credit, not_new, unknownIn]
  | seen | seenEach => cases quiet
  | _ => simp [credit, Question.announcedNew, unknownIn]

namespace Connection

variable {R R' : Type} {conn : Connection H}

/-- Code that looks no block up and announces none. -/
def Quiets (conn : Connection H) (p : Handler H R) (left : R → Connection H) : Prop :=
  Keeps identity Question.Quiet (fun _ => True) conn p left

omit [LinearOrder H] in
theorem Asides.quiets {p : Handler H R} {left : R → Connection H} (asides : conn.Asides p left) :
    conn.Quiets p left :=
  (asides_iff.mp asides).mono id (fun _ => Question.Aside.quiet) fun _ _ => trivial

omit [LinearOrder H] in
theorem Plainly.quiets {p : Handler H R} {left : R → Connection H}
    (plainly : conn.Plainly Question.Quiet True p left) : conn.Quiets p left :=
  Keeps.mono Settled.identity plainly (fun _ asked => asked.2) fun _ _ => trivial

omit [LinearOrder H] in
theorem quiets_send (message : NetworkMessage H) :
    conn.Quiets (conn.send message) fun _ => conn :=
  keeps_send trivial fun _ => trivial

/-- Code that announces a block as new no more often than it has `n` times and what it finds
    unknown, and stays in its session. -/
def Credits (hash : H) (n : Nat) (conn : Connection H) (p : Handler H R)
    (left : R → Connection H) : Prop :=
  wp (credit conn.syncHeaders hash) p (fun _ => fun
    | .ok r => conn.Same (left r)
    | .error _ => True) n

variable {hash : H} {n : Nat}

theorem Credits.pure {r : R} {left : R → Connection H} (same : conn.Same (left r)) :
    Credits hash n conn (pure r) left := same

theorem Credits.ask {q : Question H} {next : Answer q → Handler H R} {left : R → Connection H}
    (quiet : q.Quiet) (rest : ∀ a, Credits hash n conn (next a) left) :
    Credits hash n conn (.ask q next) left := by
  refine ⟨quiet.still.1, fun a => ?_⟩
  rw [quiet.still.2]
  exact rest a

theorem Credits.of_same (conn' : Connection H) {p : Handler H R} {left : R → Connection H}
    (same : conn.Same conn') (credits : Credits hash n conn' p left) :
    Credits hash n conn p left := by
  unfold Credits at *
  rw [same.2] at credits
  apply wp_mono credits
  intro _ end_ reached
  cases end_ with
  | ok r => exact ⟨reached.1.trans same.1, reached.2.trans same.2⟩
  | error e => trivial

theorem Quiets.wp {p : Handler H R} {left : R → Connection H} (quiets : conn.Quiets p left) :
    Program.wp (credit conn.syncHeaders hash) p (fun n' end_ => n' = n ∧ match end_ with
      | .ok r => conn.Same (left r)
      | .error _ => True) n := by
  apply wp_mono (wp_of_only quiets fun _ quiet => quiet.still)
  intro _ end_ reached
  cases end_ with
  | ok r => exact ⟨reached.1, same_iff.mpr reached.2⟩
  | error e => exact ⟨reached.1, trivial⟩

theorem Quiets.bind {p : Handler H R} {f : R → Handler H R'} {left : R → Connection H}
    {left' : R' → Connection H} (first : conn.Quiets p left)
    (rest : ∀ r, conn.Same (left r) → Credits hash n conn (f r) left') :
    Credits hash n conn (p >>= f) left' := by
  apply wp_bind_of first.wp
  · intro n' r reached
    obtain ⟨rfl, same⟩ := reached
    exact rest r same
  · intro _ _ _
    trivial

theorem Quiets.credits {p : Handler H R} {left : R → Connection H} (quiets : conn.Quiets p left) :
    Credits hash n conn p left := by
  apply wp_mono quiets.wp
  intro _ end_ reached
  cases end_ with
  | ok r => exact reached.2
  | error e => trivial

theorem Credits.bind {p : Handler H R} {f : R → Handler H R'} {left : R → Connection H}
    {left' : R' → Connection H} (first : Credits hash n conn p left)
    (rest : ∀ n r, conn.Same (left r) → Credits hash n conn (f r) left') :
    Credits hash n conn (p >>= f) left' := by
  apply wp_bind_of first
  · exact rest
  · intro _ _ _
    trivial

/-! ## The handlers -/

/-- An announcement spends what it says is new. -/
theorem emitBlockAnnouncement_bind {block : H} {announcementType : AnnouncementType}
    {batchSize : Nat} {newToUs : Bool} {compactBlock : Option CompactBlockShape}
    {f : Unit → Handler H R} {left : R → Connection H}
    (covered : (if newToUs then [block] else []).count hash ≤ n)
    (rest : Credits hash (n - (if newToUs then [block] else []).count hash) conn (f ()) left) :
    Credits hash n conn
      (conn.emitBlockAnnouncement block announcementType batchSize newToUs compactBlock >>= f)
      left := by
  refine Credits.ask trivial fun placement => ?_
  refine Credits.ask trivial fun timestampMs => ?_
  exact ⟨covered, fun _ => rest⟩

theorem credits_announceHeaders (net : Network H) (batchSize : Nat)
    (headers : List (Header H × Bool))
    (covered : ((headers.filter (!·.2)).map fun header => net.blockHash header.1).count hash ≤ n) :
    Credits hash n conn (conn.announceHeaders net batchSize headers) fun _ => conn := by
  induction headers generalizing n with
  | nil => exact .pure ⟨rfl, rfl⟩
  | cons first rest ih =>
      obtain ⟨header, known⟩ := first
      cases known with
      | true => exact emitBlockAnnouncement_bind (Nat.zero_le n) (ih covered)
      | false =>
          have split : ([net.blockHash header].count hash) +
              ((rest.filter (!·.2)).map fun header => net.blockHash header.1).count hash ≤ n := by
            simpa [List.count_cons, Nat.add_comm] using covered
          exact emitBlockAnnouncement_bind (Nat.le_of_add_right_le split)
            (ih (Nat.le_sub_of_add_le' split))

theorem credits_announceInv (net : Network H) (blocks : Nat) (inv : List (Inventory H))
    (announced : Nat) (getdata : List (Inventory H)) :
    Credits hash n conn (conn.announceInv net blocks inv announced getdata) (·.1) := by
  induction inv generalizing n conn announced getdata with
  | nil => exact .pure ⟨rfl, rfl⟩
  | cons item rest ih =>
      unfold announceInv
      cases item.announces with
      | none => exact ih ..
      | some block =>
          obtain ⟨block, compact⟩ := block
          dsimp only
          split
          · exact .pure ⟨rfl, rfl⟩
          · refine wp_question_bind (Nat.zero_le n) fun known => ?_
            cases known with
            | true => exact emitBlockAnnouncement_bind (Nat.zero_le _) (ih ..)
            | false =>
                apply emitBlockAnnouncement_bind (Nat.le_add_left ..)
                exact (plainly_recoverHeaders net block false).quiets.bind fun conn' same =>
                  .of_same conn' same (ih ..)

theorem credits_handleInv (net : Network H) (inv : List (Inventory H)) :
    Credits hash n conn (conn.handleInv net inv) id := by
  unfold handleInv
  split
  · exact trivial
  · refine (credits_announceInv net _ inv 0 []).bind fun n announced same => ?_
    obtain ⟨conn', getdata⟩ := announced
    refine .of_same conn' same ?_
    dsimp only
    split
    · exact .pure ⟨rfl, rfl⟩
    · exact (quiets_send _).bind fun _ _ => .pure ⟨rfl, rfl⟩

theorem credits_handleHeaders (net : Network H) (headers : List (Header H)) :
    Credits hash n conn (conn.handleHeaders net headers) id := by
  unfold handleHeaders
  split
  · split
    · exact Credits.ask trivial fun _ => trivial
    · exact .pure ⟨rfl, rfl⟩
  · -- The announcements are covered by what the lookup found unknown.
    refine wp_question_bind (Nat.zero_le n) fun knownBefore => ?_
    refine (plainly_acceptHeaders net headers).quiets.bind fun accepted same => ?_
    obtain ⟨conn', accepted, otherChain⟩ := accepted
    refine .of_same conn' same ?_
    have announced : Credits hash (n + (unknownIn conn.syncHeaders
        (.seenEach (headers.map net.blockHash)) knownBefore).count hash) conn'
        (conn'.announceBatch net headers knownBefore) fun _ => conn' := by
      unfold announceBatch
      split
      · rename_i announcing
        have covering : announces conn.syncHeaders (headers.map net.blockHash) = true := by
          have still : conn'.syncHeaders = conn.syncHeaders := same.2
          simpa [announces, ← still] using announcing
        apply credits_announceHeaders
        simp only [unknownIn, covering, if_true, List.zip_map_left, List.filter_map, List.map_map]
        exact Nat.le_add_left ..
      · exact .pure ⟨rfl, rfl⟩
    refine Credits.bind announced fun n _ _ => ?_
    cases otherChain with
    | some reason => exact trivial
    | none =>
        dsimp only
        split
        · exact (plainly_sendGetheaders net).quiets.bind fun _ _ => .pure ⟨rfl, rfl⟩
        · exact .pure ⟨rfl, rfl⟩

theorem credits_handleCmpctBlock (net : Network H) (cmpct : CmpctBlock H) :
    Credits hash n conn (conn.handleCmpctBlock net cmpct) id := by
  refine wp_question_bind (Nat.zero_le n) fun known => ?_
  refine (plainly_acceptHeaders net [cmpct.header]).quiets.bind fun accepted same => ?_
  obtain ⟨conn', accepted, otherChain⟩ := accepted
  refine .of_same conn' same ?_
  apply emitBlockAnnouncement_bind
  · cases known with
    | true => exact Nat.zero_le _
    | false => exact Nat.le_add_left ..
  · cases otherChain with
    | some reason => exact trivial
    | none =>
        by_cases probing : conn'.probeCompactBlocks = true
        · simp only [probing, if_true]
          exact ((plainly_requestCompactBlockCoinbase _).widen
            fun _ => Question.Aside.quiet).quiets.bind fun _ _ => .pure ⟨rfl, rfl⟩
        · simp only [probing, Bool.false_eq_true, if_false]
          exact .pure ⟨rfl, rfl⟩

variable (net : Network H) (codec : AddrCodec)

theorem credits_handleMessage (msg : NetworkMessage H) :
    Credits hash n conn (conn.handleMessage net codec msg) id := by
  have counted {p : Handler H (Connection H)}
      (credits : Credits hash n { conn with stats := conn.stats.recordMessage msg.command } p id) :
      Credits hash n conn p id := credits.of_same _ ⟨rfl, rfl⟩
  cases msg with
  | inv inv => exact counted (credits_handleInv net inv)
  | headers headers => exact counted (credits_handleHeaders net headers)
  | cmpctBlock cmpct => exact counted (credits_handleCmpctBlock net cmpct)
  | _ => exact (asides_handleMessage net codec rfl).quiets.credits

theorem credits_messageLoop (fuel : Nat) :
    Credits hash n conn (conn.messageLoop net codec fuel) id := by
  induction fuel generalizing n conn with
  | zero => trivial
  | succ fuel ih =>
      refine Credits.ask trivial fun woken => ?_
      cases woken with
      | tick =>
          exact asides_pingTick.quiets.bind fun conn' same => .of_same conn' same ih
      | message msg =>
          exact (credits_handleMessage net codec msg).bind fun _ conn' same =>
            .of_same conn' same ih
      | failed e => trivial

/-- A session announces a block as new no more often than it found it unknown. -/
theorem credits_run (fuel : Nat) : Credits hash n conn (conn.run net codec fuel) id := by
  refine (quiets_send _).bind fun _ _ => ?_
  refine .of_same { conn with getaddrOutstanding := true } ⟨rfl, rfl⟩ ?_
  refine (quiets_send _).bind fun _ _ => ?_
  refine (quiets_send _).bind fun _ _ => ?_
  exact (plainly_sendGetheaders net).quiets.bind fun _ _ => credits_messageLoop net codec fuel

end Connection

/-! ## The tree's lookups -/

/-- What the sessions' traces are to the tree's sightings. -/
def sightings {ι : Type} (syncHeaders : ι → Bool)
    (trace : List (ι × Exchange (Question H) Answer)) : List (HeaderTree.SightingStep H) :=
  trace.filterMap fun x => x.2.1.sighting (syncHeaders x.1)

namespace HeaderTree

variable {net : Network H}

theorem SameButRecovery.seen {t t' : HeaderTree H} (same : SameButRecovery t t') (hash : H) :
    t'.seen hash = t.seen hash := by
  rw [same]
  rfl

/-- What an answer of the tree finds unknown is what its sightings note. -/
theorem serves_sighting {s : Sightings H} {t t' : HeaderTree H} (same : SameButRecovery s.tree t)
    (syncHeaders : Bool) {q : Question H} {a : Answer q} (answer : t.serves net q a t') :
    SameButRecovery ((q.sighting syncHeaders).elim s (s.step net)).tree t' ∧
      ((q.sighting syncHeaders).elim s (s.step net)).sighted =
        s.sighted ++ unknownIn syncHeaders q a := by
  have others (plain : q.sighting syncHeaders = none) (left : SameButRecovery s.tree t')
      (known : unknownIn syncHeaders q a = []) :
      SameButRecovery ((q.sighting syncHeaders).elim s (s.step net)).tree t' ∧
        ((q.sighting syncHeaders).elim s (s.step net)).sighted =
          s.sighted ++ unknownIn syncHeaders q a := by
    rw [plain, known, List.append_nil]
    exact ⟨left, rfl⟩
  have looked (hashes : List H) : s.unseen hashes =
      ((hashes.zip (hashes.map t.seen)).filter (!·.2)).map (·.1) := by
    rw [← List.map_prod_left_eq_zip, List.filter_map, List.map_map]
    simp [Sightings.unseen, Function.comp_def, same.seen]
  cases q with
  | seen hash =>
      obtain ⟨rfl, rfl⟩ := answer
      refine ⟨same, congrArg (s.sighted ++ ·) ?_⟩
      rw [looked]
      cases known : t'.seen hash <;> simp [unknownIn, known]
  | seenEach hashes =>
      obtain ⟨rfl, rfl⟩ := answer
      cases announced : announces syncHeaders hashes with
      | true =>
          simp only [Question.sighting, unknownIn, announced, if_true]
          exact ⟨same, congrArg (s.sighted ++ ·) (looked hashes)⟩
      | false =>
          apply others _ same
          · simp [unknownIn, announced]
          · simp [Question.sighting, announced]
  | insertBatch headers =>
      have after := congrArg Prod.fst answer
      have grown : SameButRecovery (s.tree.insertBatch net headers).1
          (t.insertBatch net headers).1 := same.insertBatch headers
      rw [← after] at grown
      exact ⟨grown, (s.sighted_insert headers).trans (List.append_nil _).symm⟩
  | recoveryDue missing proven =>
      obtain ⟨now, answer⟩ := answer
      refine others rfl ?_ rfl
      have after : t' = (t.recoveryDue missing proven now).2 := congrArg Prod.snd answer
      rw [after, recoveryDue_snd]
      exact same.set s.tree.recovery _
  | tip | placement | rejectionOf | buildLocator | getHeadersFromLocator =>
      obtain ⟨-, rfl⟩ := answer
      exact others rfl same rfl
  | _ =>
      obtain rfl := answer
      exact others rfl same rfl

/-- The blocks a trace finds unknown are those its sightings note. -/
theorem serves_sighted {ι : Type} (syncHeaders : ι → Bool)
    {trace : List (ι × Exchange (Question H) Answer)} {s : Sightings H} {t t' : HeaderTree H}
    (same : SameButRecovery s.tree t) (serves : (serves net).Serves t (trace.map Prod.snd) t') :
    (Run.runFrom (Sightings.step net) s (sightings syncHeaders trace)).sighted =
      s.sighted ++ trace.flatMap fun x => unknownIn (syncHeaders x.1) x.2.1 x.2.2 := by
  induction trace generalizing s t with
  | nil => simp [sightings]
  | cons x rest ih =>
      cases serves with
      | cons answer serves =>
          obtain ⟨same, sighted⟩ := serves_sighting same (syncHeaders x.1) answer
          have rest := ih same serves
          rw [sighted, List.append_assoc] at rest
          rw [List.flatMap_cons, ← rest, sightings, sightings, List.filterMap_cons]
          cases x.2.1.sighting (syncHeaders x.1) <;> rfl

end HeaderTree

/-- Any sessions on one tree, while there is room for every refusal and no block found unknown
    is looked up again before the tree has decided on it: each block is announced as new at
    most once. -/
theorem run_newToUs_nodup (net : Network H) (codec : AddrCodec)
    (checkpoints : List (Checkpoint H))
    (distinct : (checkpoints.map Checkpoint.height).Nodup) (batches : List (List (Header H)))
    {ι : Type} [DecidableEq ι] (conns : ι → Connection H) (fuel : ι → Nat)
    {trace : List (ι × Exchange (Question H) Answer)} {t : HeaderTree H}
    (interleaved : Interleaving (HeaderTree.serves net)
      (fun i => (conns i).run net codec (fuel i)) (HeaderTree.run net checkpoints batches) trace t)
    (settled : Run.Along (HeaderTree.Sightings.step net) HeaderTree.Sightings.Settled
      (.start (HeaderTree.run net checkpoints batches))
      (sightings (fun i => (conns i).syncHeaders) trace))
    (few : HeaderTree.refusals net (HeaderTree.offers net checkpoints
      (batches ++ HeaderTree.insertions (sightings (fun i => (conns i).syncHeaders) trace))) ≤
        REJECTED_REMEMBERED) :
    (trace.flatMap fun x => x.2.1.announcedNew).Nodup := by
  have sighted := run_sighted_nodup distinct batches settled few
  have start : HeaderTree.SameButRecovery
      (HeaderTree.Sightings.start (HeaderTree.run net checkpoints batches)).tree
      (HeaderTree.run net checkpoints batches) := rfl
  rw [HeaderTree.serves_sighted _ start interleaved.serves] at sighted
  rw [List.nodup_iff_count_le_one]
  intro hash
  -- Each session's announcements are covered by its own lookups.
  have covered (i : ι) : ((own i trace).map fun x => x.1.announcedNew.count hash).sum ≤
      ((own i trace).map fun x =>
        (unknownIn (conns i).syncHeaders x.1 x.2).count hash).sum := by
    have credits : Connection.Credits hash 0 (conns i) ((conns i).run net codec (fuel i)) id :=
      Connection.credits_run net codec (fuel i)
    have le := sum_announcedNew_le ((interleaved.runs i).sound credits).1
    rwa [Nat.zero_add] at le
  have le := sum_le_of_own (f := fun _ x => x.1.announcedNew.count hash)
    (g := fun i x => (unknownIn (conns i).syncHeaders x.1 x.2).count hash) trace covered
  have once := List.nodup_iff_count_le_one.mp sighted hash
  rw [HeaderTree.Sightings.start, List.nil_append, List.count_flatMap] at once
  rw [List.count_flatMap]
  exact le.trans once

/-! ## Two sessions -/

/-- At most one announcement of a block says it is new. -/
def NewToUsOnce (net : Network H) (codec : AddrCodec) (checkpoints : List (Checkpoint H))
    (batches : List (List (Header H))) {ι : Type} [DecidableEq ι] (conns : ι → Connection H) :
    Prop :=
  ∀ (fuel : ι → Nat) trace t, Interleaving (HeaderTree.serves net)
      (fun i => (conns i).run net codec (fuel i)) (HeaderTree.run net checkpoints batches) trace t →
    HeaderTree.refusals net (HeaderTree.offers net checkpoints
      (batches ++ HeaderTree.insertions (sightings (fun i => (conns i).syncHeaders) trace))) ≤
        REJECTED_REMEMBERED →
    (trace.flatMap fun x => x.2.1.announcedNew).Nodup

/-- Surroundings in which every message goes out and the peer always says the same. -/
def hearing (net : Network H) (msg : NetworkMessage H) (t : HeaderTree H) :
    (q : Question H) → Option (Answer q × HeaderTree H)
  | .send _ => some (none, t)
  | .select => some (.message msg, t)
  | .unixMs => some (0, t)
  | .emit _ => some ((), t)
  | .tip => some ((t.tip, t.tipHeight), t)
  | .buildLocator => some (t.buildLocator, t)
  | .seen hash => some (t.seen hash, t)
  | .seenEach hashes => some (hashes.map t.seen, t)
  | .placement hash => some ((t.heightOf hash, t.rejectionOf hash), t)
  | .rejectionOf hash => some (t.rejectionOf hash, t)
  | .recoveryDue missing proven => some (t.recoveryDue missing proven 0)
  | .insertBatch headers =>
      let (tree, result) := t.insertBatch net headers
      some (result, tree)
  | _ => none

theorem hearing_serves (net : Network H) (msg : NetworkMessage H) (t : HeaderTree H)
    (q : Question H) (a : Answer q) (t' : HeaderTree H)
    (answered : hearing net msg t q = some (a, t')) : t.serves net q a t' := by
  cases q with
  | send | select | unixMs | emit => cases answered; rfl
  | tip | buildLocator | seen | seenEach | placement | rejectionOf =>
      cases answered
      exact ⟨rfl, rfl⟩
  | recoveryDue missing proven => exact ⟨0, (Option.some.inj answered).symm⟩
  | insertBatch headers => cases answered; rfl
  | _ => cases answered

/-- A session that hears one message, and what it leaves of the tree. -/
def hear (net : Network H) (codec : AddrCodec) (conn : Connection H) (msg : NetworkMessage H)
    (t : HeaderTree H) : List (Exchange (Question H) Answer) × HeaderTree H :=
  let heard := (conn.run net codec 1).against (hearing net msg) t
  (heard.1, heard.2.2)

/-- Two sessions, the second from where the first leaves the tree. -/
def hearBoth (net : Network H) (codec : AddrCodec) (conn : Connection H)
    (first second : NetworkMessage H) (t : HeaderTree H) :
    List (Bool × Exchange (Question H) Answer) × HeaderTree H :=
  let heard := hear net codec conn first t
  let more := hear net codec conn second heard.2
  (heard.1.map (Prod.mk false) ++ more.1.map (Prod.mk true), more.2)

theorem interleaving_hearBoth (net : Network H) (codec : AddrCodec) (conn : Connection H)
    (first second : NetworkMessage H) (t : HeaderTree H) :
    Interleaving (HeaderTree.serves net) (fun _ : Bool => conn.run net codec 1) t
      (hearBoth net codec conn first second t).1 (hearBoth net codec conn first second t).2 := by
  obtain ⟨reaches, served⟩ := against_spec (hearing_serves net first) (conn.run net codec 1) t
  obtain ⟨reaches', served'⟩ := against_spec (hearing_serves net second) (conn.run net codec 1)
    (hear net codec conn first t).2
  constructor
  case runs =>
    intro i
    unfold hearBoth
    rw [own_append, own_map_mk, own_map_mk]
    cases i with
    | false => simpa [hear] using reaches.runs
    | true => simpa [hear] using reaches'.runs
  case serves =>
    unfold hearBoth
    simp only [List.map_append, List.map_map, Function.comp_def, List.map_id']
    exact Service.serves_append.mpr ⟨_, served, served'⟩

/-- A session of the dialer's: it does not end once it has synced the headers. -/
def Stall.ordinary : Connection (List Nat) := { conn with syncHeaders := false }

open Stall in
/-- An inv announces a block the tree does not know, and then another session hears the same:
    an inv inserts no header. -/
theorem inv_twice_new :
    ¬ NewToUsOnce Params.mainnet.network codec [] [] (fun _ : Bool => ordinary) := by
  intro once
  have nodup := once (fun _ => 1) _ _ (interleaving_hearBoth Params.mainnet.network codec ordinary
    (.inv [.block (Params.blockHash block₁)]) (.inv [.block (Params.blockHash block₁)])
    (HeaderTree.run Params.mainnet.network [] [])) (by decide +kernel)
  revert nodup
  decide +kernel

open Stall in
/-- The first session hears the header. -/
theorem run_newToUs_nodup_headers :
    ((hearBoth Params.mainnet.network codec ordinary
      (.headers [block₁]) (.inv [.block (Params.blockHash block₁)])
      (HeaderTree.run Params.mainnet.network [] [])).1.flatMap
        fun x => x.2.1.announcedNew).Nodup :=
  run_newToUs_nodup Params.mainnet.network codec [] (by decide) []
    (fun _ => ordinary) (fun _ => 1)
    (interleaving_hearBoth Params.mainnet.network codec ordinary
      (.headers [block₁]) (.inv [.block (Params.blockHash block₁)])
      (HeaderTree.run Params.mainnet.network [] [])) (by decide +kernel) (by decide +kernel)

end P2PObserver
