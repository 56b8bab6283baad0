import P2PObserver.Lib.Script
import P2PObserver.Protocol.HeaderSync

/-! # What a session says to its peer

A session opens with four messages and from then on speaks only when it is woken, and then only
what the message or the tick that woke it calls for.
-/

namespace P2PObserver

open Program Computability

variable {H : Type}

/-! ## Lines -/

/-- What passes between a session and its peer, and what the tree hands the session to say. -/
inductive Line (H : Type) where
  | heard (woken : Woken H)
  | located (locator : List H)
  | found (locator : List H) (stop : H) (headers : List (Header H))
  | said (message : NetworkMessage H)

def Line.of : Exchange (Question H) Answer → Option (Line H)
  | ⟨.select, woken⟩ => some (.heard woken)
  | ⟨.buildLocator, locator⟩ => some (.located locator)
  | ⟨.getHeadersFromLocator locator stop, headers⟩ => some (.found locator stop headers)
  | ⟨.send message, _⟩ => some (.said message)
  | _ => none

/-! ## The grammar -/

namespace Dialogue

def utter (message : NetworkMessage H) : Language (Line H) := {[.said message]}

/-- A GETHEADERS with a locator fresh from the tree and no stop. -/
def inquiry (net : Network H) : Language (Line H) :=
  {w | ∃ locator, w = [.located locator, .said (.getHeaders
    { version := WTXID_RELAY_VERSION, locatorHashes := locator, stopHash := net.zeroHash })]}

def opening (net : Network H) : Language (Line H) :=
  utter (.sendCmpct { highBandwidth := HIGH_BANDWIDTH_COMPACT_BLOCKS, version := 2 }) *
    (utter .getAddr * (utter .sendHeaders * inquiry net))

/-- The compact blocks among the first announcements of an inv. -/
def wanted (limit : Nat) (items : List (Inventory H)) : List (Inventory H) :=
  ((items.filterMap Inventory.announces).take limit).filterMap fun (hash, compact) =>
    if compact then some (.compactBlock hash) else none

/-- What the tree finds for a locator, its first hashes at most. -/
def answer (msg : GetHeadersMessage H) : Language (Line H) :=
  {w | ∃ headers, w = [.found (msg.locatorHashes.take MAX_LOCATOR_SZ) msg.stopHash headers,
    .said (.headers headers)]}

/-- A ping with any nonce. -/
def ping : Language (Line H) := {w | ∃ nonce, w = [.said (.ping nonce)]}

/-- What a message calls for, in a session that asks for compact blocks or does not. -/
def reply (net : Network H) (probing : Bool) : NetworkMessage H → Language (Line H)
  | .ping nonce => utter (.pong nonce)
  | .inv items =>
      (1 + inquiry net) ^ MAX_BLOCK_INVS_ANNOUNCED *
        if (wanted MAX_BLOCK_INVS_ANNOUNCED items).isEmpty then 1
        else utter (.getData (wanted MAX_BLOCK_INVS_ANNOUNCED items))
  | .headers _ => 1 + inquiry net
  | .cmpctBlock block =>
      (1 + inquiry net) *
        if probing then utter (.getBlockTxn (net.blockHash block.header) [0]) else 1
  | .getHeaders msg => 1 + answer msg
  | _ => 1

/-- What is said when woken. -/
def response (net : Network H) (probing : Bool) : Woken H → Language (Line H)
  | .tick => ping
  | .message msg => reply net probing msg
  | .failed _ => 1

/-- To be woken and to respond. -/
def turn (net : Network H) (probing : Bool) : Language (Line H) :=
  {w | ∃ woken, ∃ u ∈ response net probing woken, w = .heard woken :: u}

end Dialogue

/-! ## The parts of a handler -/

namespace Connection

variable (net : Network H) (conn : Connection H)

open Dialogue

/-- A session's mode, which no message changes. -/
def mode : Bool × Bool := (conn.syncHeaders, conn.probeCompactBlocks)

/-- Code of a handler that says a word of a language and keeps the mode. -/
def Speaks {R : Type} (p : Handler H R) (L : Language (Line H)) (left : R → Connection H) : Prop :=
  Says Line.of p L fun r => (left r).mode = conn.mode

theorem speaks_send (message : NetworkMessage H) :
    conn.Speaks (conn.send message) (utter message) fun _ => conn := by
  refine Says.question fun failed => ⟨1, ?_, fun w silent => ?_⟩
  · cases failed with
    | none => exact .done rfl rfl
    | some e => exact .fail ⟨[], rfl⟩
  · rw [(Language.mem_one w).mp silent]
    rfl

theorem speaks_emitEvent (event : Event H) :
    conn.Speaks (conn.emitEvent event) 1 fun _ => conn :=
  .silent (fun _ => rfl) fun _ => .silent (fun _ => rfl) fun _ => .done rfl rfl

theorem speaks_sendGetheaders :
    conn.Speaks (conn.sendGetheaders net) (inquiry net) fun _ => conn := by
  have : Nonempty H := ⟨net.zeroHash⟩
  refine Says.question fun locator =>
    ⟨utter _, .silent (fun _ => rfl) fun _ => conn.speaks_send _, ?_⟩
  rintro w rfl
  exact ⟨locator, rfl⟩

theorem speaks_emitBlockAnnouncement (hash : H) (announcementType : AnnouncementType)
    (batchSize : Nat) (newToUs : Bool) (compactBlock : Option CompactBlockShape) :
    conn.Speaks (conn.emitBlockAnnouncement hash announcementType batchSize newToUs compactBlock)
      1 fun _ => conn :=
  .silent (fun _ => rfl) fun _ => conn.speaks_emitEvent _

theorem speaks_emitCompactBlockProbe (hash : H) (stage : ProbeStage) :
    conn.Speaks (conn.emitCompactBlockProbe hash stage) 1 fun _ => conn :=
  conn.speaks_emitEvent _

theorem speaks_announceHeaders (batchSize : Nat) (headers : List (Header H × Bool)) :
    conn.Speaks (conn.announceHeaders net batchSize headers) 1 fun _ => conn := by
  induction headers with
  | nil => exact .done rfl rfl
  | cons first rest ih =>
      have both := Says.bind (K := 1)
        (conn.speaks_emitBlockAnnouncement (net.blockHash first.1) .headers batchSize (!first.2) none)
        ⟨[], rfl⟩ fun _ _ => ih
      rwa [mul_one] at both

theorem wanted_skip {item : Inventory H} (skipped : item.announces = none) (limit : Nat)
    (rest : List (Inventory H)) : wanted limit (item :: rest) = wanted limit rest := by
  rw [wanted, List.filterMap_cons, skipped]
  rfl

theorem wanted_announced {item : Inventory H} {hash : H} {compact : Bool}
    (announced : item.announces = some (hash, compact)) (limit : Nat) (rest : List (Inventory H)) :
    wanted (limit + 1) (item :: rest) =
      (if compact then [.compactBlock hash] else []) ++ wanted limit rest := by
  rw [wanted, List.filterMap_cons, announced]
  simp only [List.take_succ_cons, List.filterMap_cons]
  cases compact <;> rfl

theorem one_mem_pow (n : Nat) : [] ∈ (1 + inquiry net) ^ n := by
  induction n with
  | zero => exact rfl
  | succ n ih =>
      rw [pow_succ]
      exact Language.append_mem_mul ih (.inl rfl)

theorem speaks_announceBatch (headers : List (Header H)) (knownBefore : List Bool) :
    conn.Speaks (conn.announceBatch net headers knownBefore) 1 fun _ => conn := by
  unfold announceBatch
  split
  · exact conn.speaks_announceHeaders net _ _
  · exact .done rfl rfl

/-! ## The messages that ask nothing of the tree -/

theorem speaks_deliver {offered : Offered H} (kept : offered.conn.mode = conn.mode) :
    conn.Speaks (deliver offered) 1 id := by
  unfold deliver
  rw [← one_mul 1]
  refine Says.bind (offered.conn.speaks_emitEvent _) ⟨[], rfl⟩ fun _ _ => ?_
  split
  · exact .done rfl kept
  · exact .silent (fun _ => rfl) fun _ => .done rfl kept

theorem speaks_timed {offer : ℚ → ℚ → Offered H}
    (kept : ∀ now restart, (offer now restart).conn.mode = conn.mode) :
    conn.Speaks (timed offer) 1 id :=
  .silent (fun _ => rfl) fun _ => .silent (fun _ => rfl) fun _ => conn.speaks_deliver (kept _ _)

theorem speaks_handlePong (nonce : UInt64) :
    conn.Speaks (conn.handlePong nonce) 1 id := by
  refine .silent (fun _ => rfl) fun now => ?_
  dsimp only
  split
  · refine .silent (fun _ => rfl) fun ms => ?_
    exact Says.map (speaks_emitEvent { conn with stats := _ } _) fun _ _ => rfl
  · exact .done rfl rfl

theorem speaks_handleGetHeaders (msg : GetHeadersMessage H) :
    conn.Speaks (conn.handleGetHeaders msg) (1 + answer msg) id := by
  refine .silent (fun _ => rfl) fun now => .silent (fun _ => rfl) fun restart => ?_
  have kept : (conn.mayAnswerGetheaders now restart).2.mode = conn.mode := by
    unfold mayAnswerGetheaders
    dsimp only
    split <;> rfl
  dsimp only
  split
  · refine .question fun headers => ⟨utter (.headers headers),
      Says.map (speaks_send _ _) fun _ _ => kept, ?_⟩
    rintro w rfl
    exact .inr ⟨headers, rfl⟩
  · exact .done (.inl rfl) kept

theorem speaks_pingTick : conn.Speaks conn.pingTick ping id := by
  refine .silent (fun _ => rfl) fun now => ?_
  split
  · exact .fail ⟨_, 0, rfl⟩
  · refine .silent (fun _ => rfl) fun nonce => ?_
    refine Says.mono (Says.map (speaks_send _ (.ping nonce)) fun _ _ => ?_) ?_ fun _ kept => kept
    · rfl
    · rintro w rfl
      exact ⟨nonce, rfl⟩

section Handlers

variable [DecidableEq H]

theorem speaks_recoverHeaders (missing : H) (proven : Bool) :
    conn.Speaks (conn.recoverHeaders net missing proven) (1 + inquiry net) id := by
  have quiet : conn.Speaks (pure conn) (1 + inquiry net) id := .done (.inl rfl) rfl
  unfold recoverHeaders
  split
  · exact quiet
  · refine .silent (fun _ => rfl) fun rejection => ?_
    split
    · exact quiet
    · refine .silent (fun _ => rfl) fun due => ?_
      split
      · exact quiet
      · have asked := speaks_sendGetheaders net { conn with askedFor := some missing }
        refine Says.map (asked.mono (fun _ word => .inr word) fun _ kept => kept) fun _ _ => ?_
        rfl

/-- In a sync, offering headers asks for nothing. -/
def acceptance : Language (Line H) := if conn.syncHeaders then 1 else 1 + inquiry net

theorem speaks_acceptHeaders (headers : List (Header H)) :
    conn.Speaks (conn.acceptHeaders net headers) (conn.acceptance net) fun r => r.1 := by
  have : Nonempty H := ⟨net.zeroHash⟩
  have quiet : [] ∈ conn.acceptance net := by
    unfold acceptance
    split
    · rfl
    · exact .inl rfl
  refine .silent (fun _ => rfl) fun ⟨accepted, err⟩ => .silent (fun _ => rfl) fun _ => ?_
  dsimp only
  split
  · exact .done quiet rfl
  · split
    · rename_i behind
      split
      · exact .done quiet rfl
      · rename_i newest _
        have asked := conn.speaks_recoverHeaders net (net.blockHash newest) true
        rw [acceptance, behind.2]
        exact Says.map asked fun _ kept => kept
    · exact .done quiet rfl

theorem speaks_handleHeaders (headers : List (Header H)) :
    conn.Speaks (conn.handleHeaders net headers) (1 + inquiry net) id := by
  have : Nonempty H := ⟨net.zeroHash⟩
  unfold handleHeaders
  split
  · split
    · exact .silent (fun _ => rfl) fun _ => .fail ⟨[], .inl rfl⟩
    · exact .done (.inl rfl) rfl
  · refine .silent (fun _ => rfl) fun knownBefore => ?_
    -- in a sync only the end of it asks, outside one only the acceptance
    have parts : conn.acceptance net * (if conn.syncHeaders then 1 + inquiry net else 1) =
        1 + inquiry net := by
      unfold acceptance
      split
      · rw [one_mul]
      · rw [mul_one]
    rw [← parts]
    have word : ∃ w, w ∈ (if conn.syncHeaders then 1 + inquiry net else 1 : Language (Line H)) := by
      split
      · exact ⟨[], .inl rfl⟩
      · exact ⟨[], rfl⟩
    refine Says.bind (conn.speaks_acceptHeaders net headers) word ?_
    rintro ⟨conn', accepted, otherChain⟩ kept
    have sync : conn'.syncHeaders = conn.syncHeaders := congrArg Prod.fst kept
    rw [← one_mul (if conn.syncHeaders then _ else _)]
    refine Says.bind (conn'.speaks_announceBatch net headers knownBefore) word fun _ _ => ?_
    split
    · exact .fail word
    · split
      · rename_i more
        rw [Bool.and_eq_true, sync] at more
        rw [if_pos more.1]
        refine Says.mono (Says.map (conn'.speaks_sendGetheaders net) ?_) (fun _ word => .inr word)
          fun _ still => still
        exact fun _ _ => kept
      · refine .done ?_ kept
        split
        · exact .inl rfl
        · rfl

/-! ## Announcements -/

theorem speaks_announceInv (blocks : Nat) (items : List (Inventory H)) :
    ∀ (conn : Connection H) (announced : Nat) (getdata : List (Inventory H)),
      Says Line.of (conn.announceInv net blocks items announced getdata)
        ((1 + inquiry net) ^ (MAX_BLOCK_INVS_ANNOUNCED - announced)) fun r =>
          r.1.mode = conn.mode ∧
            r.2 = getdata ++ wanted (MAX_BLOCK_INVS_ANNOUNCED - announced) items := by
  induction items with
  | nil =>
      intro conn announced getdata
      refine .done (one_mem_pow net _) ⟨rfl, ?_⟩
      simp [wanted]
  | cons item rest ih =>
      intro conn announced getdata
      unfold announceInv
      split
      · rename_i skipped
        rw [wanted_skip skipped]
        exact ih conn announced getdata
      · rename_i hash compact isBlock
        split
        · rename_i full
          rw [Nat.sub_eq_zero_of_le full]
          exact .done rfl ⟨rfl, by simp [wanted]⟩
        · rename_i room
          obtain ⟨left, room⟩ := Nat.exists_eq_add_of_lt (Nat.lt_of_not_le room)
          have now : MAX_BLOCK_INVS_ANNOUNCED - announced = left + 1 := by omega
          have later : MAX_BLOCK_INVS_ANNOUNCED - (announced + 1) = left := by omega
          rw [now, wanted_announced isBlock]
          have go (conn' : Connection H) (kept : conn'.mode = conn.mode) :
              Says Line.of (conn'.announceInv net blocks rest (announced + 1)
                  (if compact then getdata ++ [.compactBlock hash] else getdata))
                ((1 + inquiry net) ^ left) fun r => r.1.mode = conn.mode ∧
                  r.2 = getdata ++ ((if compact then [.compactBlock hash] else []) ++
                    wanted left rest) := by
            have found := ih conn' (announced + 1)
              (if compact then getdata ++ [.compactBlock hash] else getdata)
            rw [later] at found
            refine found.mono (fun _ word => word) ?_
            rintro r ⟨same, list⟩
            refine ⟨same.trans kept, list.trans ?_⟩
            cases compact <;> simp
          refine .silent (fun _ => rfl) fun known => ?_
          rw [← one_mul ((1 + inquiry net) ^ (left + 1))]
          refine Says.bind (conn.speaks_emitBlockAnnouncement ..) ⟨[], one_mem_pow net _⟩
            fun _ _ => ?_
          rw [pow_succ']
          cases known with
          | true =>
              refine (go conn rfl).mono (fun w word => ?_) fun _ holds => holds
              exact ⟨[], .inl rfl, w, word, rfl⟩
          | false =>
              exact Says.bind (conn.speaks_recoverHeaders net hash false) ⟨[], one_mem_pow net _⟩
                fun conn' kept => go conn' kept

theorem speaks_handleInv (items : List (Inventory H)) :
    conn.Speaks (conn.handleInv net items) (reply net conn.probeCompactBlocks (.inv items)) id := by
  have word : ∃ w, w ∈ (if (wanted MAX_BLOCK_INVS_ANNOUNCED items).isEmpty then 1
      else utter (.getData (wanted MAX_BLOCK_INVS_ANNOUNCED items)) : Language (Line H)) := by
    split
    · exact ⟨[], rfl⟩
    · exact ⟨_, rfl⟩
  unfold handleInv reply
  split
  · obtain ⟨w, word⟩ := word
    exact .fail ⟨[] ++ w, Language.append_mem_mul (one_mem_pow net _) word⟩
  · refine Says.bind (speaks_announceInv net _ items conn 0 []) word ?_
    rintro ⟨conn', getdata⟩ ⟨kept, list⟩
    obtain rfl : getdata = wanted MAX_BLOCK_INVS_ANNOUNCED items := list
    dsimp only
    split
    · exact .done rfl kept
    · exact Says.map (conn'.speaks_send _) fun _ _ => kept

theorem speaks_handleCmpctBlock (block : CmpctBlock H) :
    conn.Speaks (conn.handleCmpctBlock net block)
      (reply net conn.probeCompactBlocks (.cmpctBlock block)) id := by
  have word : ∃ w, w ∈ (if conn.probeCompactBlocks then
      utter (.getBlockTxn (net.blockHash block.header) [0]) else 1 : Language (Line H)) := by
    split
    · exact ⟨_, rfl⟩
    · exact ⟨[], rfl⟩
  unfold handleCmpctBlock reply
  refine .silent (fun _ => rfl) fun known => ?_
  have accepts : conn.acceptance net ≤ 1 + inquiry net := by
    unfold acceptance
    split
    · exact fun _ silent => .inl silent
    · exact le_rfl
  refine Says.bind (Says.mono (conn.speaks_acceptHeaders net [block.header]) accepts
    fun _ kept => kept) word ?_
  rintro ⟨conn', accepted, otherChain⟩ kept
  have probing : conn'.probeCompactBlocks = conn.probeCompactBlocks := congrArg Prod.snd kept
  rw [← one_mul (if conn.probeCompactBlocks then _ else _)]
  refine Says.bind (conn'.speaks_emitBlockAnnouncement ..) word fun _ _ => ?_
  split
  · exact .fail word
  · rw [probing]
    split
    · have asked := Says.bind (K := 1) (conn'.speaks_send
        (.getBlockTxn (net.blockHash block.header) [0])) ⟨[], rfl⟩ fun _ _ =>
          conn'.speaks_emitCompactBlockProbe (net.blockHash block.header) .requested
      rw [mul_one] at asked
      exact Says.map asked fun _ _ => kept
    · exact .done rfl kept

/-! ## Every message -/

variable (codec : AddrCodec)

theorem speaks_handleMessage (msg : NetworkMessage H) :
    conn.Speaks (conn.handleMessage net codec msg) (reply net conn.probeCompactBlocks msg) id := by
  have quiet {R : Type} {p : Handler H R} {left : R → Connection H} {event : Event H}
      {conn' : Connection H} (kept : conn'.mode = conn.mode) :
      conn.Speaks (conn'.emitEvent event >>= fun _ => pure conn') 1 id :=
    Says.map (conn'.speaks_emitEvent event) fun _ _ => kept
  unfold handleMessage
  generalize counted : { conn with stats := conn.stats.recordMessage msg.command } = conn'
  have kept : conn'.mode = conn.mode := by rw [← counted]; rfl
  have probing : conn'.probeCompactBlocks = conn.probeCompactBlocks := by rw [← counted]
  have same {L : Language (Line H)} {p : Handler H (Connection H)} (speaks : conn'.Speaks p L id) :
      conn.Speaks p L id := Says.mono speaks (fun _ word => word) fun _ still => still.trans kept
  rw [← probing]
  apply same
  cases msg with
  | ping nonce => exact Says.map (conn'.speaks_send _) fun _ _ => rfl
  | pong nonce => exact conn'.speaks_handlePong nonce
  | inv items => exact conn'.speaks_handleInv net items
  | headers headers => exact conn'.speaks_handleHeaders net headers
  | cmpctBlock block => exact conn'.speaks_handleCmpctBlock net block
  | addr payload => exact conn'.speaks_timed fun _ _ => rfl
  | addrV2 payload => exact conn'.speaks_timed fun _ _ => rfl
  | sendCmpct message => exact Says.map (conn'.speaks_emitEvent _) fun _ _ => rfl
  | feeFilter rate => exact Says.map (conn'.speaks_emitEvent _) fun _ _ => rfl
  | getHeaders msg => exact conn'.speaks_handleGetHeaders msg
  | blockTxn hash =>
      exact Says.map (conn'.speaks_emitCompactBlockProbe hash .answered) fun _ _ => rfl
  | unknown command payload =>
      rw [dispatch]
      split
      · exact conn'.speaks_timed fun _ _ => rfl
      · exact .done rfl rfl
  | _ => exact .done rfl rfl

/-! ## The session -/

theorem speaks_messageLoop (fuel : Nat) : ∀ conn : Connection H,
    conn.Speaks (messageLoop net codec fuel conn) (turn net conn.probeCompactBlocks)∗ id := by
  induction fuel with
  | zero => exact fun conn => .running ⟨[], Language.nil_mem_kstar _⟩
  | succ fuel ih =>
      intro conn
      have : Nonempty (Woken H) := ⟨.tick⟩
      have go {p : Handler H (Connection H)} {woken : Woken H}
          (speaks : conn.Speaks p (response net conn.probeCompactBlocks woken) id) :
          conn.Speaks (p >>= messageLoop net codec fuel)
            (response net conn.probeCompactBlocks woken * (turn net conn.probeCompactBlocks)∗) id :=
        Says.bind speaks ⟨[], Language.nil_mem_kstar _⟩ fun conn' kept => by
          have same : conn'.probeCompactBlocks = conn.probeCompactBlocks := congrArg Prod.snd kept
          rw [← same]
          exact Says.mono (ih conn') (fun _ word => word) fun _ still => still.trans kept
      refine .question fun woken => ⟨response net conn.probeCompactBlocks woken *
        (turn net conn.probeCompactBlocks)∗, ?_, ?_⟩
      · cases woken with
        | tick => exact go conn.speaks_pingTick
        | message msg => exact go (conn.speaks_handleMessage net codec msg)
        | failed e =>
            exact .fail ⟨[], Language.mem_mul.mpr ⟨[], rfl, [], Language.nil_mem_kstar _, rfl⟩⟩
      · intro w word
        obtain ⟨u, said, v, later, rfl⟩ := Language.mem_mul.mp word
        have more : turn net conn.probeCompactBlocks * (turn net conn.probeCompactBlocks)∗ ≤
            (turn net conn.probeCompactBlocks)∗ := mul_kstar_le_kstar
        exact more ⟨.heard woken :: u, ⟨woken, u, said, rfl⟩, v, later, rfl⟩

/-- Whatever the peer and the tree do, a session speaks by the grammar. -/
theorem run_dialogue (fuel : Nat) {trace : List (Exchange (Question H) Answer)}
    {end_ : Option (Except (AnyError × Connection H) (Connection H))}
    (runs : Runs (conn.run net codec fuel) trace end_) :
    script Line.of trace ∈ beginnings (opening net * (turn net conn.probeCompactBlocks)∗) := by
  have rest (conn' : Connection H) (same : conn'.mode = conn.mode) :
      conn'.Speaks (conn'.sendGetheaders net >>= fun _ => messageLoop net codec fuel conn')
        (inquiry net * (turn net conn.probeCompactBlocks)∗) id := by
    have probing : conn'.probeCompactBlocks = conn.probeCompactBlocks := congrArg Prod.snd same
    rw [← probing]
    exact Says.bind (conn'.speaks_sendGetheaders net) ⟨[], Language.nil_mem_kstar _⟩
      fun _ _ => speaks_messageLoop net codec fuel conn'
  have whole : conn.Speaks (conn.run net codec fuel)
      (opening net * (turn net conn.probeCompactBlocks)∗) id := by
    unfold opening
    rw [mul_assoc, mul_assoc, mul_assoc]
    refine Says.bind (conn.speaks_send _) ?_ fun _ _ => ?_
    · obtain ⟨w, word⟩ := (rest conn rfl).nonempty
      exact ⟨_, _, rfl, _, ⟨_, rfl, _, word, rfl⟩, rfl⟩
    · refine Says.bind (speaks_send _ _) ?_ fun _ _ => ?_
      · obtain ⟨w, word⟩ := (rest conn rfl).nonempty
        exact ⟨_, _, rfl, _, word, rfl⟩
      · refine Says.bind (speaks_send _ _) (rest conn rfl).nonempty fun _ _ => ?_
        exact rest { conn with getaddrOutstanding := true } rfl
  exact whole.begun trace end_ runs

end Handlers

end Connection

/-! ## An exchange -/

namespace Dialogue

/-- A peer announces two blocks the tree does not have, the first as a compact block, and is
    gone. -/
def answers (n : Nat) : (q : Question (List Nat)) → Answer q
  | .select =>
      if n < 10 then .message (.inv [.compactBlock [1], .block [2]])
      else .failed ⟨[.inl .peerClosed], .io .unexpectedEof, []⟩
  | .tip => ([0], 0)
  | .seen _ => false
  | .seenEach hashes => hashes.map fun _ => false
  | .insertBatch _ => (0, none)
  | .placement _ => (none, none)
  | .rejectionOf _ => none
  | .recoveryDue .. => true
  | .buildLocator => [[n]]
  | .getHeadersFromLocator .. => []
  | .peerId | .unixMs | .random => 0
  | .now => 0
  | .send _ => none
  | .handshakeSend _ | .handshakeRecv | .socksConnect .. | .tcpConnect _ | .bip324Handshake =>
      .elapsed
  | .undecodable => 0
  | .setNodelay | .setUserTimeout => none
  | .emit _ | .gossip _ | .lifecycle _ => ()

/-- The session's side of it. -/
def exchange : List (Exchange (Question (List Nat)) Answer) ×
    Option (Except (AnyError × Connection (List Nat)) (Connection (List Nat))) :=
  (Stall.conn.run Params.mainnet.network Stall.codec 2).play answers 0

def asks (locator : List (List Nat)) : List (Line (List Nat)) :=
  [.located locator,
    .said (.getHeaders ⟨WTXID_RELAY_VERSION, locator, Params.mainnet.network.zeroHash⟩)]

end Dialogue

open Dialogue in
theorem run_dialogue_exchange :
    script Line.of exchange.1 =
      [.said (.sendCmpct ⟨true, 2⟩), .said .getAddr, .said .sendHeaders] ++ asks [[3]] ++
        (.heard (.message (.inv [.compactBlock [1], .block [2]])) :: asks [[13]] ++ asks [[22]] ++
          [.said (.getData [.compactBlock [1]])]) ++
        [.heard (.failed ⟨[.inl .peerClosed], .io .unexpectedEof, []⟩)] ∧
      script Line.of exchange.1 ∈ beginnings (opening Params.mainnet.network *
        (turn Params.mainnet.network Stall.conn.probeCompactBlocks)∗) :=
  ⟨rfl, Connection.run_dialogue Params.mainnet.network Stall.conn Stall.codec 2 (runs_play ..)⟩

end P2PObserver
