import P2PObserver.Lib.Service
import P2PObserver.Protocol.Session

/-! # What a session asks

Between its handshake and its end a session only asks the questions listed here, keeps its
own name, and reports the sync as complete for an empty HEADERS alone.
-/

namespace P2PObserver

open Program

variable {H : Type}

/-- Whether an event is one of a running session. -/
def Event.ofSession : Event H → Bool
  | .handshake _ | .connectionResult _ => false
  | _ => true

/-- What the handlers of a session ask. -/
def Question.InHandler (id : UInt64) : Question H → Prop
  | .emit event => event.connectionId = id ∧ ∃ e, event.event = some e ∧ e.ofSession = true
  | .tip | .seen _ | .seenEach _ | .insertBatch _ | .placement _ | .rejectionOf _
  | .recoveryDue .. | .buildLocator | .getHeadersFromLocator .. | .now | .unixMs | .send _
  | .gossip _ => True
  | _ => False

namespace Connection

/-- Still the same session. -/
def Same (conn conn' : Connection H) : Prop :=
  conn'.connectionId = conn.connectionId ∧ conn'.syncHeaders = conn.syncHeaders

/-- Code that asks only some questions, fails only in some ways and leaves a part of the
    connection as it is. -/
def Keeps {K R : Type} (part : Connection H → K) (allowed : Question H → Prop)
    (failing : AnyError × Connection H → Prop) (conn : Connection H) (p : Handler H R)
    (left : R → Connection H) : Prop :=
  wp (Monitor.only Answer allowed) p
    (fun _ => fun
      | .ok r => part (left r) = part conn
      | .error e => failing e) ()

section Keeps

variable {K R R' : Type} {part : Connection H → K} {allowed : Question H → Prop}
  {failing : AnyError × Connection H → Prop} {conn : Connection H}

theorem Keeps.bind {p : Handler H R} {f : R → Handler H R'} {left : R → Connection H}
    {left' : R' → Connection H} (first : Keeps part allowed failing conn p left)
    (rest : ∀ r, part (left r) = part conn → Keeps part allowed failing conn (f r) left') :
    Keeps part allowed failing conn (p >>= f) left' := by
  apply wp_bind_of first
  · intro _ r same
    exact rest r same
  · intro _ e failed
    exact failed

theorem Keeps.ask {q : Question H} (asked : allowed q) :
    Keeps part allowed failing conn (ask q) fun _ => conn :=
  ⟨asked, fun _ => rfl⟩

theorem Keeps.pure {r : R} {left : R → Connection H} (same : part (left r) = part conn) :
    Keeps part allowed failing conn (pure r) left := same

theorem Keeps.fail {e : AnyError} {conn' : Connection H} {left : R → Connection H}
    (failed : failing (e, conn')) : Keeps part allowed failing conn (.fail (e, conn')) left :=
  failed

/-- Code that goes on with another connection, where the part is the same. -/
theorem Keeps.of_same (conn' : Connection H) {p : Handler H R} {left : R → Connection H}
    (same : part conn' = part conn) (keeps : Keeps part allowed failing conn' p left) :
    Keeps part allowed failing conn p left := by
  apply wp_mono keeps
  intro _ end_ reached
  cases end_ with
  | ok r => exact reached.trans same
  | error e => exact reached

theorem Keeps.mono {K' : Type} (coarser : K → K') {allowed' : Question H → Prop}
    {failing' : AnyError × Connection H → Prop} {p : Handler H R} {left : R → Connection H}
    (keeps : Keeps part allowed failing conn p left) (asks : ∀ q, allowed q → allowed' q)
    (fails : ∀ e, failing e → failing' e) :
    Keeps (coarser ∘ part) allowed' failing' conn p left := by
  have still : ∀ q, allowed q → (Monitor.only Answer allowed').ok () q ∧
      ∀ a, (Monitor.only Answer allowed').next () q a = () := fun q asked =>
    ⟨asks q asked, fun _ => rfl⟩
  apply wp_mono (wp_of_only keeps still)
  intro _ end_ reached
  cases end_ with
  | ok r => exact congrArg coarser reached.2
  | error e => exact fails _ reached.2

theorem keeps_send {message : NetworkMessage H} (asked : allowed (.send message))
    (fails : ∀ e, failing (.ofTransport e, conn)) :
    Keeps part allowed failing conn (conn.send message) fun _ => conn := by
  refine Keeps.bind (.ask asked) fun failed _ => ?_
  cases failed with
  | none => exact Keeps.pure rfl
  | some e => exact Keeps.fail (fails e)

theorem keeps_emitEvent {event : Event H} (wall : allowed .unixMs)
    (emits : ∀ e : PeerEvent H, e.connectionId = conn.connectionId → e.event = some event →
      allowed (.emit e)) :
    Keeps part allowed failing conn (conn.emitEvent event) fun _ => conn :=
  Keeps.bind (.ask wall) fun _ _ => .ask (emits _ rfl rfl)

end Keeps

/-- The name of a session and its kind. -/
def identity (conn : Connection H) : UInt64 × Bool := (conn.connectionId, conn.syncHeaders)

theorem same_iff {conn conn' : Connection H} :
    conn.Same conn' ↔ conn'.identity = conn.identity := by
  simp [Same, identity]

/-- Code of a handler: what it asks, and that it neither leaves its session nor reports the
    sync as complete. -/
def Handles {R : Type} (conn : Connection H) (p : Handler H R) (left : R → Connection H) :
    Prop :=
  wp (Monitor.only Answer (Question.InHandler conn.connectionId)) p
    (fun _ => fun
      | .ok r => conn.Same (left r)
      | .error e => e.1.isSyncComplete = false) ()

/-- Staying in a session is keeping its identity. -/
theorem keeps_identity_iff {R : Type} (allowed : Question H → Prop)
    (failing : AnyError × Connection H → Prop) {conn : Connection H} {p : Handler H R}
    {left : R → Connection H} :
    wp (Monitor.only Answer allowed) p
        (fun _ => fun
          | .ok r => conn.Same (left r)
          | .error e => failing e) () ↔
      Keeps identity allowed failing conn p left := by
  constructor
  · intro same
    apply wp_mono same
    intro _ end_ reached
    cases end_ with
    | ok r => exact same_iff.mp reached
    | error e => exact reached
  · intro keeps
    apply wp_mono keeps
    intro _ end_ reached
    cases end_ with
    | ok r => exact same_iff.mpr reached
    | error e => exact reached

theorem handles_iff {R : Type} {conn : Connection H} {p : Handler H R}
    {left : R → Connection H} : conn.Handles p left ↔
      Keeps identity (Question.InHandler conn.connectionId) (·.1.isSyncComplete = false) conn p
        left :=
  keeps_identity_iff _ (·.1.isSyncComplete = false)

/-! ## What the handlers leave alone -/

/-- What of a connection pongs, GETHEADERS and the ping clock may change, and what nothing
    does. -/
structure Steady where
  connectionId : UInt64
  syncHeaders : Bool
  outstandingPings : List UInt64
  lastPong : ℚ
  getheadersTokens : ℚ
  getheadersTokensUpdated : ℚ
  getheadersIgnored : UInt32

def steady (conn : Connection H) : Steady where
  connectionId := conn.connectionId
  syncHeaders := conn.syncHeaders
  outstandingPings := conn.stats.outstandingPings
  lastPong := conn.stats.lastPong
  getheadersTokens := conn.getheadersTokens
  getheadersTokensUpdated := conn.getheadersTokensUpdated
  getheadersIgnored := conn.stats.getheadersIgnored

/-- What no handler of another message changes: all that is steady, and the statistics once the
    message is counted. -/
structure Settled where
  connectionId : UInt64
  syncHeaders : Bool
  stats : ConnectionStats
  getheadersTokens : ℚ
  getheadersTokensUpdated : ℚ

def settled (conn : Connection H) : Settled where
  connectionId := conn.connectionId
  syncHeaders := conn.syncHeaders
  stats := conn.stats
  getheadersTokens := conn.getheadersTokens
  getheadersTokensUpdated := conn.getheadersTokensUpdated

def Settled.steady (s : Settled) : Steady where
  connectionId := s.connectionId
  syncHeaders := s.syncHeaders
  outstandingPings := s.stats.outstandingPings
  lastPong := s.stats.lastPong
  getheadersTokens := s.getheadersTokens
  getheadersTokensUpdated := s.getheadersTokensUpdated
  getheadersIgnored := s.stats.getheadersIgnored

def Settled.identity (s : Settled) : UInt64 × Bool := (s.connectionId, s.syncHeaders)

theorem steady_of_settled {conn conn' : Connection H} (same : conn'.settled = conn.settled) :
    conn'.steady = conn.steady :=
  congrArg Settled.steady same

end Connection

/-! ## What the handlers ask -/

/-- What the handlers of the other messages ask. -/
def Question.Ordinary (q : Question H) (id : UInt64) : Prop :=
  q.InHandler id ∧ (∀ nonce, q ≠ .send (.ping nonce)) ∧ ∀ headers, q ≠ .send (.headers headers)

/-- The messages but for the two whose handlers change what is steady. -/
def NetworkMessage.ordinary : NetworkMessage H → Bool
  | .pong _ | .getHeaders _ => false
  | _ => true

/-- How they fail. -/
def AnyError.Ordinary (e : AnyError) : Prop :=
  e.isSyncComplete = false ∧ ∀ waited, e.root ≠ .pingTimeout waited

/-- Whether a message is about no block. -/
def NetworkMessage.aside : NetworkMessage H → Bool
  | .headers _ | .inv _ | .cmpctBlock _ => false
  | _ => true

/-- What the handlers of such messages ask. -/
def Question.Aside : Question H → Prop
  | .emit event => ∀ announcement, event.event ≠ some (.blockAnnouncement announcement)
  | .send message => ∀ request, message ≠ .getHeaders request
  | .getHeadersFromLocator .. | .now | .unixMs | .gossip _ => True
  | _ => False

/-- Questions that look no block up and announce none. -/
def Question.Quiet : Question H → Prop
  | .emit event => ∀ announcement, event.event ≠ some (.blockAnnouncement announcement)
  | .seen _ | .seenEach _ => False
  | _ => True

theorem Question.Aside.quiet {q : Question H} (aside : q.Aside) : q.Quiet := by
  cases q with
  | seen | seenEach => exact aside
  | emit => exact aside
  | _ => trivial

/-- An ordinary question that publishes no round trip either. -/
structure Question.Plain (q : Question H) (id : UInt64) : Prop where
  inHandler : q.InHandler id
  noPing : ∀ nonce, q ≠ .send (.ping nonce)
  noHeaders : ∀ headers, q ≠ .send (.headers headers)
  unmeasured : ∀ event, q = .emit event → ∀ ping, event.event ≠ some (.pingRtt ping)

/-- Questions of a handler that send nothing and publish nothing. -/
def Question.lookup : Question H → Bool
  | .tip | .seen _ | .seenEach _ | .insertBatch _ | .placement _ | .rejectionOf _ | .recoveryDue ..
  | .buildLocator | .getHeadersFromLocator .. | .now | .unixMs | .gossip _ => true
  | _ => false

theorem Question.plain_of_lookup {q : Question H} (lookup : q.lookup = true) (id : UInt64) :
    q.Plain id := by
  have inHandler : q.InHandler id := by
    cases q <;> trivial
  constructor
  · exact inHandler
  all_goals
    rintro _ rfl
    cases lookup

namespace Connection

/-- Code of a message other than a pong or a GETHEADERS: how far its questions go, and whether it
    may report the sync as complete. -/
def Plainly {R : Type} (within : Question H → Prop) (finishes : Prop) (conn : Connection H)
    (p : Handler H R) (left : R → Connection H) : Prop :=
  Keeps settled (fun q => q.Plain conn.connectionId ∧ within q)
    (fun e => (e.1.isSyncComplete = true → finishes) ∧ (∀ waited, e.1.root ≠ .pingTimeout waited) ∧
      e.2.settled = conn.settled) conn p left

section Plainly

variable {R R' : Type} {within : Question H → Prop} {finishes : Prop} {conn : Connection H}

theorem Plainly.of_same (conn' : Connection H) {p : Handler H R} {left : R → Connection H}
    (same : conn'.settled = conn.settled) (plainly : conn'.Plainly within finishes p left) :
    conn.Plainly within finishes p left := by
  have its : conn'.connectionId = conn.connectionId := congrArg Settled.connectionId same
  unfold Plainly at *
  rw [its, same] at plainly
  exact Keeps.of_same conn' same plainly

theorem Plainly.widen {within' : Question H → Prop} {p : Handler H R} {left : R → Connection H}
    (plainly : conn.Plainly within finishes p left) (wider : ∀ q, within q → within' q) :
    conn.Plainly within' finishes p left :=
  Keeps.mono id plainly (fun q asked => ⟨asked.1, wider q asked.2⟩) fun _ failed => failed

theorem plainly_send {message : NetworkMessage H} (noPing : ∀ nonce, message ≠ .ping nonce)
    (noHeaders : ∀ headers, message ≠ .headers headers) (inside : within (.send message)) :
    conn.Plainly within finishes (conn.send message) fun _ => conn := by
  have plain : (Question.send message).Plain conn.connectionId := by
    refine ⟨trivial, fun nonce is => noPing nonce ?_, fun headers is => noHeaders headers ?_, ?_⟩
    · exact Question.send.inj is
    · exact Question.send.inj is
    · rintro _ ⟨⟩
  exact keeps_send ⟨plain, inside⟩ fun _ => ⟨nofun, nofun, rfl⟩

theorem plainly_throw {root : Root} (left : R → Connection H)
    (finished : root = .syncComplete → finishes) (answered : ∀ waited, root ≠ .pingTimeout waited) :
    conn.Plainly within finishes (conn.throw root) left :=
  Keeps.fail ⟨fun complete => finished (beq_iff_eq.mp complete), answered, rfl⟩

theorem plainly_emitEvent {event : Event H} (ofSession : event.ofSession = true)
    (unmeasured : ∀ ping, event ≠ .pingRtt ping) (wall : within .unixMs)
    (inside : ∀ e : PeerEvent H, e.event = some event → within (.emit e)) :
    conn.Plainly within finishes (conn.emitEvent event) fun _ => conn := by
  apply keeps_emitEvent ⟨Question.plain_of_lookup rfl _, wall⟩
  intro e here is
  refine ⟨⟨⟨here, event, is, ofSession⟩, nofun, nofun, ?_⟩, inside e is⟩
  rintro _ same ping measured
  obtain rfl := Question.emit.inj same
  exact unmeasured ping (Option.some.inj (is.symm.trans measured))

theorem plainly_ask {q : Question H} (lookup : q.lookup = true) (inside : within q) :
    conn.Plainly within finishes (ask q) fun _ => conn :=
  Keeps.ask ⟨q.plain_of_lookup lookup _, inside⟩

/-! ### Messages about no block -/

theorem plainly_emitAside {event : Event H} (ofSession : event.ofSession = true)
    (unmeasured : ∀ ping, event ≠ .pingRtt ping)
    (other : ∀ announcement, event ≠ .blockAnnouncement announcement) :
    conn.Plainly Question.Aside finishes (conn.emitEvent event) fun _ => conn :=
  plainly_emitEvent ofSession unmeasured trivial fun _ is announcement same =>
    other announcement (Option.some.inj (is.symm.trans same))

theorem plainly_requestCompactBlockCoinbase (hash : H) :
    conn.Plainly Question.Aside finishes (conn.requestCompactBlockCoinbase hash) fun _ => conn :=
  Keeps.bind (plainly_send nofun nofun nofun) fun _ _ => plainly_emitAside rfl nofun nofun

theorem plainly_timed {offer : ℚ → ℚ → Offered H}
    (same : ∀ now restart, (offer now restart).conn.settled = conn.settled) :
    conn.Plainly Question.Aside finishes (timed offer) id := by
  refine Keeps.bind (plainly_ask rfl trivial) fun now _ => ?_
  refine Keeps.bind (plainly_ask rfl trivial) fun restart _ => ?_
  refine Plainly.of_same _ (same now restart) ?_
  refine Keeps.bind (plainly_emitAside rfl nofun nofun) fun _ _ => ?_
  split
  · exact Keeps.pure rfl
  · exact Keeps.bind (plainly_ask rfl trivial) fun _ _ => .pure rfl

/-! ### Asking for headers -/

variable (net : Network H)

theorem plainly_sendGetheaders :
    conn.Plainly Question.Quiet finishes (conn.sendGetheaders net) fun _ => conn :=
  Keeps.bind (plainly_ask rfl trivial) fun _ _ =>
    Keeps.bind (plainly_ask rfl trivial) fun _ _ =>
      plainly_send nofun nofun trivial

theorem plainly_recoverHeaders [DecidableEq H] (missing : H) (proven : Bool) :
    conn.Plainly Question.Quiet finishes (conn.recoverHeaders net missing proven) id := by
  unfold recoverHeaders
  split
  · exact Keeps.pure rfl
  · refine Keeps.bind (plainly_ask rfl trivial) fun rejection _ => ?_
    split
    · exact Keeps.pure rfl
    · refine Keeps.bind (plainly_ask rfl trivial) fun due _ => ?_
      split
      · exact Keeps.pure rfl
      · refine Plainly.of_same { conn with askedFor := some missing } rfl ?_
        exact Keeps.bind (plainly_sendGetheaders net) fun _ _ => .pure rfl

theorem plainly_acceptHeaders [DecidableEq H] (headers : List (Header H)) :
    conn.Plainly Question.Quiet finishes (conn.acceptHeaders net headers) fun r => r.1 := by
  refine Keeps.bind (plainly_ask rfl trivial) fun (accepted, err) _ => ?_
  refine Keeps.bind (plainly_ask rfl trivial) fun _ _ => ?_
  cases err with
  | none => exact Keeps.pure rfl
  | some e =>
      dsimp only
      split
      · split
        · exact Keeps.pure rfl
        · exact Keeps.bind (plainly_recoverHeaders net _ _) fun _ same => .pure same
      · exact Keeps.pure rfl

/-! ### Announcing blocks -/

/-- Code of any other message, block or no block. -/
abbrev Tells (finishes : Prop) (conn : Connection H) (p : Handler H R)
    (left : R → Connection H) : Prop :=
  conn.Plainly (fun _ => True) finishes p left

theorem Plainly.tells {p : Handler H R} {left : R → Connection H}
    (plainly : conn.Plainly within finishes p left) : conn.Tells finishes p left :=
  plainly.widen fun _ _ => trivial

theorem tells_emitBlockAnnouncement (hash : H) (announcementType : AnnouncementType)
    (batchSize : Nat) (newToUs : Bool) (compactBlock : Option CompactBlockShape) :
    conn.Tells finishes
      (conn.emitBlockAnnouncement hash announcementType batchSize newToUs compactBlock)
      fun _ => conn :=
  Keeps.bind (plainly_ask rfl trivial) fun _ _ =>
    plainly_emitEvent rfl nofun trivial fun _ _ => trivial

theorem tells_announceHeaders (batchSize : Nat) (headers : List (Header H × Bool)) :
    conn.Tells finishes (conn.announceHeaders net batchSize headers) fun _ => conn := by
  induction headers with
  | nil => exact Keeps.pure rfl
  | cons first rest ih =>
      exact Keeps.bind (tells_emitBlockAnnouncement ..) fun _ _ => ih

theorem tells_announceBatch (headers : List (Header H)) (knownBefore : List Bool) :
    conn.Tells finishes (conn.announceBatch net headers knownBefore) fun _ => conn := by
  unfold announceBatch
  split
  · exact tells_announceHeaders net ..
  · exact Keeps.pure rfl

variable [DecidableEq H]

theorem tells_handleHeaders {headers : List (Header H)}
    (finished : conn.syncHeaders = true → headers = [] → finishes) :
    conn.Tells finishes (conn.handleHeaders net headers) id := by
  unfold handleHeaders
  split
  case isTrue empty =>
    split
    case isTrue sync =>
      exact Keeps.bind (plainly_ask rfl trivial) fun _ _ =>
        plainly_throw id (fun _ => finished sync (List.isEmpty_iff.mp empty)) nofun
    case isFalse => exact Keeps.pure rfl
  case isFalse =>
    refine Keeps.bind (plainly_ask rfl trivial) fun knownBefore _ => ?_
    refine Keeps.bind (plainly_acceptHeaders net headers).tells
      fun (conn', accepted, otherChain) same => Plainly.of_same _ same ?_
    refine Keeps.bind (tells_announceBatch net headers knownBefore) fun _ _ => ?_
    cases otherChain with
    | some reason => exact plainly_throw id nofun nofun
    | none =>
        dsimp only
        split
        · exact Keeps.bind (plainly_sendGetheaders net).tells fun _ _ => .pure rfl
        · exact Keeps.pure rfl

theorem tells_announceInv (blocks announced : Nat) (inv getdata : List (Inventory H)) :
    conn.Tells finishes (conn.announceInv net blocks inv announced getdata) fun r => r.1 := by
  induction inv generalizing conn announced getdata with
  | nil => exact Keeps.pure rfl
  | cons item rest ih =>
      unfold announceInv
      cases item.announces with
      | none => exact ih ..
      | some announced' =>
          dsimp only
          split
          · exact Keeps.pure rfl
          · refine Keeps.bind (plainly_ask rfl trivial) fun known _ => ?_
            refine Keeps.bind (tells_emitBlockAnnouncement ..) fun _ _ => ?_
            split
            · exact ih ..
            · exact Keeps.bind (plainly_recoverHeaders net _ _).tells fun _ same =>
                Plainly.of_same _ same (ih ..)

theorem tells_handleInv (inv : List (Inventory H)) :
    conn.Tells finishes (conn.handleInv net inv) id := by
  unfold handleInv
  split
  · exact plainly_throw id nofun nofun
  · refine Keeps.bind (tells_announceInv net ..) fun (conn', getdata) same =>
      Plainly.of_same _ same ?_
    dsimp only
    split
    · exact Keeps.pure rfl
    · exact Keeps.bind (plainly_send nofun nofun trivial) fun _ _ => .pure rfl

theorem tells_handleCmpctBlock (cmpct : CmpctBlock H) :
    conn.Tells finishes (conn.handleCmpctBlock net cmpct) id := by
  refine Keeps.bind (plainly_ask rfl trivial) fun known _ => ?_
  refine Keeps.bind (plainly_acceptHeaders net _).tells fun (conn', _, otherChain) same =>
    Plainly.of_same _ same ?_
  refine Keeps.bind (tells_emitBlockAnnouncement ..) fun _ _ => ?_
  cases otherChain with
  | some reason => exact plainly_throw id nofun nofun
  | none =>
      dsimp only
      split
      · exact Keeps.bind (plainly_requestCompactBlockCoinbase _).tells fun _ _ => .pure rfl
      · exact Keeps.pure rfl

/-! ### Every message -/

variable (codec : AddrCodec)

theorem plainly_dispatch {msg : NetworkMessage H} (ordinary : msg.ordinary = true)
    (aside : msg.aside = true) :
    conn.Plainly Question.Aside finishes (conn.dispatch net codec msg) id := by
  unfold dispatch
  cases msg with
  | pong | getHeaders => cases ordinary
  | inv | headers | cmpctBlock => cases aside
  | ping nonce => exact Keeps.bind (plainly_send nofun nofun nofun) fun _ _ => .pure rfl
  | addr payload | addrV2 payload => exact plainly_timed fun _ _ => rfl
  | sendCmpct message | feeFilter satPerKvb =>
      exact Keeps.bind (plainly_emitAside rfl nofun nofun) fun _ _ => .pure rfl
  | blockTxn hash => exact Keeps.bind (plainly_emitAside rfl nofun nofun) fun _ _ => .pure rfl
  | unknown command payload =>
      dsimp only
      split
      · exact plainly_timed fun _ _ => rfl
      · exact Keeps.pure rfl
  | version | verack | sendAddrV2 | wtxidRelay | getData | sendHeaders | getBlockTxn | getAddr
  | other => exact Keeps.pure rfl

theorem tells_dispatch {msg : NetworkMessage H} (ordinary : msg.ordinary = true)
    (finished : conn.syncHeaders = true → msg = .headers [] → finishes) :
    conn.Tells finishes (conn.dispatch net codec msg) id := by
  cases msg with
  | inv inv => exact tells_handleInv net inv
  | headers headers =>
      apply tells_handleHeaders
      intro sync empty
      exact finished sync (congrArg _ empty)
  | cmpctBlock cmpct => exact tells_handleCmpctBlock net cmpct
  | _ => exact (plainly_dispatch net codec ordinary rfl).tells

end Plainly

/-! ## Ordinary code -/

/-- Code of a message other than a pong or a GETHEADERS. -/
def Ordinary {R : Type} (conn : Connection H) (p : Handler H R) (left : R → Connection H) :
    Prop :=
  Keeps steady (·.Ordinary conn.connectionId)
    (fun e => e.1.Ordinary ∧ e.2.steady = conn.steady) conn p left

variable {R R' : Type} {conn : Connection H}

theorem Plainly.ordinary {within : Question H → Prop} {p : Handler H R} {left : R → Connection H}
    (plainly : conn.Plainly within False p left) : conn.Ordinary p left :=
  Keeps.mono Settled.steady plainly
    (fun _ asked => ⟨asked.1.inHandler, asked.1.noPing, asked.1.noHeaders⟩)
    fun _ failed => ⟨⟨eq_false_of_ne_true failed.1, failed.2.1⟩, steady_of_settled failed.2.2⟩

theorem Ordinary.handles {p : Handler H R} {left : R → Connection H}
    (ordinary : conn.Ordinary p left) : conn.Handles p left := by
  apply handles_iff.mpr
  exact Keeps.mono (fun steady => (steady.connectionId, steady.syncHeaders)) ordinary
    (fun _ asked => asked.1) fun _ failed => failed.1.1

theorem ordinary_send {message : NetworkMessage H} (noPing : ∀ nonce, message ≠ .ping nonce)
    (noHeaders : ∀ headers, message ≠ .headers headers) :
    conn.Ordinary (conn.send message) fun _ => conn :=
  Plainly.ordinary (plainly_send noPing noHeaders trivial : conn.Tells False _ _)

variable (net : Network H)

theorem ordinary_sendGetheaders : conn.Ordinary (conn.sendGetheaders net) fun _ => conn :=
  (plainly_sendGetheaders net).ordinary

variable (codec : AddrCodec)

theorem steady_recordMessage (command : String) :
    ({ conn with stats := conn.stats.recordMessage command } : Connection H).steady =
      conn.steady := by
  unfold steady ConnectionStats.recordMessage
  split
  · rfl
  · split <;> rfl

variable [DecidableEq H]

/-- The end of a sync aside, whatever an ordinary message does. -/
theorem keeps_handleMessage {msg : NetworkMessage H} (ordinary : msg.ordinary = true) :
    Keeps steady (·.Ordinary conn.connectionId)
      (fun e => (∀ waited, e.1.root ≠ .pingTimeout waited) ∧ e.2.steady = conn.steady)
      conn (conn.handleMessage net codec msg) id := by
  refine Keeps.of_same { conn with stats := conn.stats.recordMessage msg.command }
    (steady_recordMessage _) ?_
  have tells := @tells_dispatch H True { conn with stats := conn.stats.recordMessage msg.command }
    net _ codec msg ordinary fun _ _ => trivial
  refine Keeps.mono Settled.steady tells
    (fun _ asked => ⟨asked.1.inHandler, asked.1.noPing, asked.1.noHeaders⟩) fun _ failed => ?_
  exact ⟨failed.2.1, (steady_of_settled failed.2.2).trans (steady_recordMessage _)⟩

/-! ## Pongs, GETHEADERS and the ping clock -/

section Others

variable {K : Type} {part : Connection H → K} {allowed : Question H → Prop}
  {failing : AnyError × Connection H → Prop}

omit [DecidableEq H] in
theorem keeps_handlePong (nonce : UInt64) (clock : allowed .now) (wall : allowed .unixMs)
    (emits : ∀ event : PeerEvent H, event.connectionId = conn.connectionId →
      (∃ ping, event.event = some (.pingRtt ping)) → allowed (.emit event))
    (same : ∀ now, part { conn with stats := (conn.stats.claimPong nonce now).2 } = part conn) :
    Keeps part allowed failing conn (conn.handlePong nonce) id := by
  refine Keeps.bind (.ask clock) fun now _ => ?_
  have same := same now
  generalize conn.stats.claimPong nonce now = claim at same ⊢
  obtain ⟨claimed, stats⟩ := claim
  refine Keeps.of_same { conn with stats } same ?_
  dsimp only
  split
  · refine Keeps.bind (.ask wall) fun _ _ => ?_
    exact Keeps.bind (keeps_emitEvent wall fun event here is => emits event here ⟨_, is⟩)
      fun _ _ => .pure rfl
  · exact Keeps.pure rfl

omit [DecidableEq H] in
theorem keeps_handleGetHeaders (msg : GetHeadersMessage H) (clock : allowed .now)
    (lookup : ∀ locator stop, allowed (.getHeadersFromLocator locator stop))
    (replies : ∀ headers, allowed (.send (.headers headers)))
    (fails : ∀ e now restart, failing (.ofTransport e, (conn.mayAnswerGetheaders now restart).2))
    (same : ∀ now restart, part (conn.mayAnswerGetheaders now restart).2 = part conn)
    (ignored : ∀ conn : Connection H, part conn.ignoreGetheaders = part conn) :
    Keeps part allowed failing conn (conn.handleGetHeaders msg) id := by
  refine Keeps.bind (.ask clock) fun now _ => ?_
  refine Keeps.bind (.ask clock) fun restart _ => ?_
  refine Keeps.of_same _ (same now restart) ?_
  dsimp only
  split
  · refine Keeps.bind (.ask (lookup ..)) fun _ _ => ?_
    exact Keeps.bind (keeps_send (replies _) fun e => fails e now restart) fun _ _ => .pure rfl
  · exact Keeps.pure (ignored _)

omit [DecidableEq H] in
theorem keeps_pingTick (clock : allowed .now) (wall : allowed .unixMs)
    (pings : ∀ nonce, allowed (.send (.ping nonce)))
    (fails : ∀ e nonce, failing
      (.ofTransport e, { conn with stats := conn.stats.recordPing nonce }))
    (timesOut : ∀ waited, failing (.ofRoot (.pingTimeout waited), conn))
    (same : ∀ nonce, part { conn with stats := conn.stats.recordPing nonce } = part conn) :
    Keeps part allowed failing conn conn.pingTick id := by
  refine Keeps.bind (.ask clock) fun now _ => ?_
  cases conn.stats.pingTimedOut now with
  | some waited => exact Keeps.fail (timesOut waited)
  | none =>
      refine Keeps.bind (.ask wall) fun nonce _ => ?_
      refine Keeps.of_same { conn with stats := conn.stats.recordPing nonce } (same nonce) ?_
      exact Keeps.bind (keeps_send (pings nonce) fun e => fails e nonce) fun _ _ => .pure rfl

end Others

omit [DecidableEq H] in
theorem handles_pingTick : conn.Handles conn.pingTick id :=
  handles_iff.mpr (keeps_pingTick trivial trivial (fun _ => trivial) (fun _ _ => rfl)
    (fun _ => rfl) fun _ => rfl)

omit [DecidableEq H] in
theorem identity_mayAnswerGetheaders (now restart : ℚ) :
    (conn.mayAnswerGetheaders now restart).2.identity = conn.identity := by
  unfold mayAnswerGetheaders
  dsimp only
  split <;> rfl

theorem handles_handleMessage {msg : NetworkMessage H}
    (unfinished : conn.syncHeaders = true → msg ≠ .headers []) :
    conn.Handles (conn.handleMessage net codec msg) id := by
  have counted {p : Handler H (Connection H)}
      (handles : Handles { conn with stats := conn.stats.recordMessage msg.command } p id) :
      conn.Handles p id := handles_iff.mpr (Keeps.of_same _ rfl (handles_iff.mp handles))
  cases ordinary : msg.ordinary with
  | true =>
      have tells := @tells_dispatch H False
        { conn with stats := conn.stats.recordMessage msg.command } net _ codec msg ordinary
        unfinished
      exact counted tells.ordinary.handles
  | false =>
      cases msg with
      | pong nonce =>
          exact counted (handles_iff.mpr (keeps_handlePong nonce trivial trivial
            (fun _ here ⟨_, is⟩ => ⟨here, _, is, rfl⟩) fun _ => rfl))
      | getHeaders request =>
          exact counted (handles_iff.mpr (keeps_handleGetHeaders request trivial
            (fun _ _ => trivial) (fun _ => trivial) (fun _ _ _ => rfl) identity_mayAnswerGetheaders
            fun _ => rfl))
      | _ => cases ordinary

/-! ## Watching a session -/

/-- An empty HEADERS is what ends a sync. -/
def Synced (conn : Connection H) (msg : NetworkMessage H) : Prop :=
  conn.syncHeaders = true ∧ msg = .headers []

/-- A monitor that the handlers leave where it is, with what holds of it until an empty HEADERS
    ends the sync and what holds then. -/
structure Watches {S : Type} (m : Monitor (Question H) Answer S) (conn : Connection H)
    (inv final : S → Prop) : Prop where
  still : ∀ s q, inv s ∨ final s → q.InHandler conn.connectionId →
    m.ok s q ∧ ∀ a, m.next s q a = s
  select : ∀ s, inv s → m.ok s .select
  ordinary : ∀ s woken, inv s → (∀ msg, woken = .message msg → ¬conn.Synced msg) →
    inv (m.next s .select woken)
  synced : ∀ s msg, inv s → conn.Synced msg → final (m.next s .select (.message msg))

/-- How a session under such a monitor ends: with an error. -/
def Ended {S R : Type} (inv final : S → Prop) (s : S) (end_ : Except (AnyError × Connection H) R) :
    Prop :=
  ∃ e conn', end_ = .error (e, conn') ∧ if e.isSyncComplete then final s else inv s

omit [DecidableEq H] in
theorem Watches.of_same {S : Type} {m : Monitor (Question H) Answer S} {inv final : S → Prop}
    (watches : conn.Watches m inv final) {conn' : Connection H} (same : conn.Same conn') :
    conn'.Watches m inv final where
  still := same.1 ▸ watches.still
  select := watches.select
  ordinary s woken holds unsynced := watches.ordinary s woken holds fun msg is synced =>
    unsynced msg is ⟨same.2.trans synced.1, synced.2⟩
  synced s msg holds synced := watches.synced s msg holds ⟨same.2.symm.trans synced.1, synced.2⟩

/-- The specification of a message's handler. -/
theorem wp_handleMessage (msg : NetworkMessage H) :
    wp (Monitor.only Answer (Question.InHandler conn.connectionId))
      (conn.handleMessage net codec msg)
      (fun _ => fun
        | .ok conn' => conn.Same conn' ∧ ¬conn.Synced msg
        | .error e => e.1.isSyncComplete = true ↔ conn.Synced msg) () := by
  by_cases synced : conn.Synced msg
  · obtain ⟨sync, rfl⟩ := synced
    simp [handleMessage, dispatch, handleHeaders, sync, ask, throw, Synced, Monitor.only,
      Question.InHandler, AnyError.ofRoot, AnyError.isSyncComplete]
  · have handles : conn.Handles (conn.handleMessage net codec msg) id :=
      handles_handleMessage net codec fun sync empty => synced ⟨sync, empty⟩
    apply wp_mono handles
    intro _ end_ reached
    cases end_ with
    | ok conn' => exact ⟨reached, synced⟩
    | error e =>
        constructor
        · intro complete
          rw [reached] at complete
          cases complete
        · intro is
          exact absurd is synced

/-! ## The loop -/

variable {S : Type} {m : Monitor (Question H) Answer S} {inv final : S → Prop}

theorem wp_messageLoop (watches : conn.Watches m inv final) (fuel : Nat) {s : S} (holds : inv s) :
    wp m (messageLoop net codec fuel conn) (Ended inv final) s := by
  induction fuel generalizing conn s with
  | zero => trivial
  | succ fuel ih =>
      refine wp_question_bind (watches.select s holds) fun woken => ?_
      cases woken with
      | tick =>
          have holds := watches.ordinary s .tick holds fun msg is => by cases is
          refine wp_bind_of (wp_of_only handles_pingTick fun q => watches.still _ q (.inl holds)) ?_ ?_
          · rintro _ conn' ⟨rfl, same⟩
            exact ih (watches.of_same same) holds
          · rintro _ e ⟨rfl, other⟩
            exact ⟨e.1, e.2, rfl, by simpa [other] using holds⟩
      | message msg =>
          have received : (¬conn.Synced msg → inv (m.next s .select (.message msg))) ∧
              (conn.Synced msg → final (m.next s .select (.message msg))) := by
            refine ⟨fun unsynced => watches.ordinary s _ holds fun _ is => ?_,
              watches.synced s msg holds⟩
            cases is
            exact unsynced
          have still := (em (conn.Synced msg)).symm.imp received.1 received.2
          refine wp_bind_of (wp_of_only (wp_handleMessage net codec msg)
            fun q => watches.still _ q still) ?_ ?_
          · rintro _ conn' ⟨rfl, same, unsynced⟩
            exact ih (watches.of_same same) (received.1 unsynced)
          · rintro _ e ⟨rfl, complete⟩
            refine ⟨e.1, e.2, rfl, ?_⟩
            split
            · exact received.2 (complete.mp ‹_›)
            · exact received.1 (mt complete.mpr ‹_›)
      | failed e =>
          have holds := watches.ordinary s (.failed e) holds fun msg is => by cases is
          exact ⟨_, conn, rfl, holds⟩

theorem wp_run (watches : conn.Watches m inv final) (fuel : Nat) {s : S} (holds : inv s) :
    wp m (conn.run net codec fuel) (Ended inv final) s := by
  have andThen {conn : Connection H} (watches : conn.Watches m inv final) {R : Type}
      {p : Handler H R} {left : R → Connection H} {f : R → Handler H (Connection H)}
      (handles : conn.Handles p left) (rest : ∀ r, wp m (f r) (Ended inv final) s) :
      wp m (p >>= f) (Ended inv final) s := by
    refine wp_bind_of (wp_of_only handles fun q => watches.still s q (.inl holds)) ?_ ?_
    · rintro _ r ⟨rfl, _⟩
      exact rest r
    · rintro _ e ⟨rfl, other⟩
      exact ⟨e.1, e.2, rfl, by simpa [other] using holds⟩
  have outstanding : Connection.Watches m { conn with getaddrOutstanding := true } inv final :=
    watches.of_same ⟨rfl, rfl⟩
  refine andThen watches (ordinary_send (by simp) (by simp)).handles fun _ => ?_
  refine andThen outstanding (ordinary_send (by simp) (by simp)).handles fun _ => ?_
  refine andThen outstanding (ordinary_send (by simp) (by simp)).handles fun _ => ?_
  refine andThen outstanding (ordinary_sendGetheaders net).handles fun _ => ?_
  exact wp_messageLoop net codec outstanding fuel holds

/-! ## Serving a session -/

section Serving

variable {service : Service (Question H) Answer S} {holds : S → Connection H → Prop}
  {final : S → AnyError × Connection H → Prop}

/-- How a part of a session ends: with a connection it goes on with, or for good. -/
def Ends {R : Type} (holds : S → Connection H → Prop) (final : S → AnyError × Connection H → Prop)
    (left : R → Connection H) (s : S) : Except (AnyError × Connection H) R → Prop
  | .ok r => holds s (left r)
  | .error e => final s e

/-- What holds of a session that waits holds when it waits again. -/
structure Served (service : Service (Question H) Answer S) (holds : S → Connection H → Prop)
    (final : S → AnyError × Connection H → Prop) : Prop where
  tick : ∀ {s s' conn}, holds s conn → service s .select .tick s' →
    meets service (fun _ _ => True) conn.pingTick (Ends holds final id) s'
  message : ∀ {s s' conn msg}, holds s conn → service s .select (.message msg) s' →
    meets service (fun _ _ => True) (conn.handleMessage net codec msg) (Ends holds final id) s'
  failed : ∀ {s s' conn e}, holds s conn → service s .select (.failed e) s' →
    final s' (.ofTransport e, conn)

theorem meets_messageLoop (served : Served net codec service holds final) {s : S}
    (begins : holds s conn) (fuel : Nat) :
    meets service (fun _ _ => True) (conn.messageLoop net codec fuel) (Ends holds final id) s := by
  induction fuel generalizing s conn with
  | zero => trivial
  | succ fuel ih =>
      -- A handler, and then the rest of the loop.
      have then_ {p : Handler H (Connection H)} {s : S}
          (first : meets service (fun _ _ => True) p (Ends holds final id) s) :
          meets service (fun _ _ => True)
            (p.bind fun conn => conn.messageLoop net codec fuel) (Ends holds final id) s := by
        apply meets_bind_of first
        · intro _ _ again
          exact ih again
        · intro _ _ ended
          exact ended
      refine meets_question_bind trivial fun woken s' answer => ?_
      cases woken with
      | tick => exact then_ (served.tick begins answer)
      | message msg => exact then_ (served.message begins answer)
      | failed e => exact served.failed begins answer

/-- The opening of a session asks nothing but ordinary questions. -/
theorem meets_run (idle : S → Connection H → Prop) (served : Served net codec service holds final)
    (ordinary : ∀ {R : Type} {conn : Connection H} {p : Handler H R} {left : R → Connection H}
      {s : S}, idle s conn → conn.Ordinary p left →
        meets service (fun _ _ => True) p (Ends idle final left) s)
    (asks : ∀ {s : S} {conn : Connection H}, idle s conn →
      idle s { conn with getaddrOutstanding := true })
    (waits : ∀ {s : S} {conn : Connection H}, idle s conn → holds s conn) {s : S}
    (begins : idle s conn) (fuel : Nat) :
    meets service (fun _ _ => True) (conn.run net codec fuel) (Ends holds final id) s := by
  have then_ {conn : Connection H} {s : S} (begins : idle s conn) {p : Handler H Unit}
      {f : Unit → Handler H (Connection H)} (first : conn.Ordinary p fun _ => conn)
      (rest : ∀ s, idle s conn → meets service (fun _ _ => True) (f ()) (Ends holds final id) s) :
      meets service (fun _ _ => True) (p.bind f) (Ends holds final id) s := by
    apply meets_bind_of (ordinary begins first)
    · intro s' _ again
      exact rest s' again
    · intro _ _ ended
      exact ended
  refine then_ begins (ordinary_send (by simp) (by simp)) fun _ again => ?_
  refine then_ (asks again) (ordinary_send (by simp) (by simp)) fun _ again => ?_
  refine then_ again (ordinary_send (by simp) (by simp)) fun _ again => ?_
  refine then_ again (ordinary_sendGetheaders net) fun _ again => ?_
  exact meets_messageLoop net codec served (waits again) fuel

end Serving

end Connection

end P2PObserver
