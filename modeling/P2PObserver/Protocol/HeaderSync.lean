import P2PObserver.Protocol.Asides
import P2PObserver.Protocol.Replies
import P2PObserver.Protocol.SharedTree

/-! # The header sync against a peer with a tree of its own

A session that syncs headers asks with a locator of its tree, inserts each reply and asks
again. The peer answers from its tree. Whether the exchange goes on or comes to an end depends
on what each reply teaches.
-/

namespace P2PObserver

open Program

variable {H : Type} [LinearOrder H] (net : Network H)

/-! ## The exchange -/

/-- The syncing side: its tree, and the requests the peer has not answered. -/
@[ext]
structure Sync (H : Type) where
  tree : HeaderTree H
  requests : List (GetHeadersMessage H)

namespace Sync

/-- A session's surroundings while it syncs: every message goes out, a HEADERS is the peer's
    answer to the oldest request, and of the other messages none is about a block. -/
def serves (peer : HeaderTree H) : Service (Question H) Answer (Sync H)
  | s, .send (.getHeaders request), a, s' =>
      a = none ∧ s' = { s with requests := s.requests ++ [request] }
  | s, .send _, a, s' => a = none ∧ s' = s
  | s, .select, .message (.headers headers), s' => ∃ request rest,
      s.requests = request :: rest ∧
        headers = peer.getHeadersFromLocator net request.locatorHashes request.stopHash ∧
        s' = { s with requests := rest }
  | s, .select, .message msg, s' => msg.aside = true ∧ s' = s
  | s, .select, _, s' => s' = s
  | s, q, a, s' => s.tree.serves net q a s'.tree ∧ s'.requests = s.requests

/-- A session waits with a request outstanding. -/
def Outstanding (s : Sync H) : Question H → Prop
  | .select => s.requests ≠ []
  | _ => True

/-- Replies that teach the tree something, or end the sync. -/
def Learns (s : Sync H) : (q : Question H) → Answer q → Prop
  | .select, .message (.headers headers) => s.tree.Teaches net headers
  | _, _ => True

/-- How a session without an outstanding request may end. -/
def Finished (e : AnyError) : Prop :=
  e = .ofRoot .syncComplete ∨ ∃ reason, e = .ofRoot (.otherChain reason)

/-- What an end of the session is to be. -/
def EndsWell {R : Type} (peer : HeaderTree H) (s : Sync H) :
    Except (AnyError × Connection H) R → Prop
  | .ok _ => False
  | .error (e, _) => (s.requests = [] → Finished e) ∧
      (e.isSyncComplete = true → peer.tip ∈ s.tree.headers)

/-- The request a session makes. -/
def request (t : HeaderTree H) : GetHeadersMessage H :=
  { version := WTXID_RELAY_VERSION, locatorHashes := t.buildLocator, stopHash := net.zeroHash }

/-! ## Handlers -/

variable {net} {peer : HeaderTree H} {ok : Sync H → Question H → Prop}

theorem serves_still {s s' : Sync H} {q : Question H} (aside : q.Aside) {a : Answer q}
    (answer : serves net peer s q a s') : s' = s := by
  cases q with
  | send message =>
      cases message with
      | getHeaders request => exact absurd rfl (aside request)
      | _ => exact answer.2
  | getHeadersFromLocator => exact Sync.ext answer.1.2 answer.2
  | emit | now | unixMs | gossip => exact Sync.ext answer.1 answer.2
  | _ => cases aside

theorem meets_of_asides {R : Type} {conn : Connection H} {p : Handler H R} {left : R → Connection H}
    {s : Sync H} (asides : conn.Asides p left) (open_ : ∀ q, q.Aside → ok s q) :
    meets (serves net peer) ok p (fun s' end_ => s' = s ∧ match end_ with
      | .ok r => conn.Same (left r)
      | .error e => e.1.isSyncComplete = false) s := by
  apply meets_mono (meets_of_only asides fun q aside =>
    ⟨open_ q aside, fun _ _ => serves_still aside⟩)
  intro s' end_ reached
  cases end_ with
  | ok r => exact reached
  | error e => exact reached

/-- A getheaders of ours goes out with a locator of the tree. -/
theorem meets_sendGetheaders {conn : Connection H} {s : Sync H}
    (open_ : ∀ s q, q ≠ .select → ok s q) :
    meets (serves net peer) ok (conn.sendGetheaders net)
      (fun s' end_ => end_ = .ok () ∧
        s' = { s with requests := s.requests ++ [request net s.tree] })
      s := by
  refine meets_question_bind (open_ _ _ nofun) fun locator s₁ answer => ?_
  obtain ⟨⟨rfl, tree⟩, requests⟩ := answer
  obtain rfl := Sync.ext tree requests
  refine meets_question_bind (open_ _ _ nofun) fun tip s₂ answer => ?_
  obtain ⟨⟨_, tree⟩, requests⟩ := answer
  obtain rfl := Sync.ext tree requests
  refine meets_question_bind (open_ _ _ nofun) fun failed s₃ answer => ?_
  obtain ⟨rfl, rfl⟩ := answer
  exact ⟨rfl, rfl⟩

theorem meets_acceptHeaders {conn : Connection H} (sync : conn.syncHeaders = true) {s : Sync H}
    (open_ : ∀ s q, q ≠ .select → ok s q) (headers : List (Header H)) :
    meets (serves net peer) ok (conn.acceptHeaders net headers)
      (fun s' end_ => s' = { s with tree := (s.tree.insertBatch net headers).1 } ∧
        end_ = .ok (conn, (s.tree.insertBatch net headers).2.1,
          (s.tree.insertBatch net headers).2.2.filter (·.isOtherChain))) s := by
  refine meets_question_bind (open_ _ _ nofun) fun result s₁ answer => ?_
  obtain ⟨tree, requests⟩ := answer
  have grown : s₁ = { s with tree := (s.tree.insertBatch net headers).1 } :=
    Sync.ext (congrArg Prod.fst tree) requests
  rw [← congrArg Prod.snd tree, ← grown]
  refine meets_question_bind (open_ _ _ nofun) fun tip s₂ answer => ?_
  obtain ⟨⟨_, tree⟩, requests⟩ := answer
  obtain rfl := Sync.ext tree requests
  obtain ⟨accepted, err⟩ := result
  cases err with
  | none => exact ⟨rfl, rfl⟩
  | some e =>
      dsimp only
      rw [if_neg (by simp [sync])]
      exact ⟨rfl, rfl⟩

/-- What handling a reply comes to: the session asks again or ends exactly if the reply teaches
    the tree something, and an empty one is what completes the sync. -/
def Handled (net : Network H) (conn : Connection H) (headers : List (Header H)) (s s' : Sync H) :
    Except (AnyError × Connection H) (Connection H) → Prop
  | .ok conn' => conn.Same conn' ∧ s'.tree = (s.tree.insertBatch net headers).1 ∧
      s'.requests = s.requests ++
        if s.tree.Teaches net headers then [request net s'.tree] else []
  | .error (e, _) => s.tree.Teaches net headers ∧ Finished e ∧
      (e.isSyncComplete = true → headers = [] ∧ s' = s)

theorem meets_handleHeaders {conn : Connection H} (sync : conn.syncHeaders = true) {s : Sync H}
    {headers : List (Header H)} (open_ : ∀ s q, q ≠ .select → ok s q)
    (advances : headers ≠ [] →
      (HeaderTree.Advances (s.tree.insertBatch net headers).2 ↔ s.tree.Teaches net headers)) :
    meets (serves net peer) ok (conn.handleHeaders net headers)
      (Handled net conn headers s) s := by
  unfold Connection.handleHeaders
  cases headers with
  | nil =>
      rw [if_pos List.isEmpty_nil, if_pos sync]
      refine meets_question_bind (open_ _ _ nofun) fun tip s₁ answer => ?_
      obtain ⟨⟨_, tree⟩, requests⟩ := answer
      obtain rfl := Sync.ext tree requests
      exact ⟨.inl rfl, .inl rfl, fun _ => ⟨rfl, rfl⟩⟩
  | cons first rest =>
      have advances := advances (List.cons_ne_nil first rest)
      rw [if_neg (by simp)]
      refine meets_question_bind (open_ _ _ nofun) fun knownBefore s₁ answer => ?_
      obtain ⟨⟨_, tree⟩, requests⟩ := answer
      obtain rfl := Sync.ext tree requests
      refine meets_bind_of (meets_acceptHeaders sync open_ _) ?_ ?_
      · intro s₂ r accepted
        obtain ⟨rfl, same⟩ := accepted
        cases same
        have quiet (knownBefore : List Bool) :
            conn.announceBatch net (first :: rest) knownBefore = pure () :=
          if_neg (by simp [sync])
        dsimp only
        rw [quiet]
        generalize grown : s₁.tree.insertBatch net (first :: rest) = inserted at advances ⊢
        obtain ⟨tree, accepted, err⟩ := inserted
        dsimp only at advances ⊢
        cases refusal : err.filter (·.isOtherChain) with
        | some reason =>
            obtain ⟨is, other⟩ := Option.filter_eq_some_iff.mp refusal
            exact ⟨advances.mp (.inr ⟨reason, is, other⟩), .inr ⟨reason, rfl⟩, nofun⟩
        | none =>
            have placed : HeaderTree.Advances (accepted, err) ↔ 0 < accepted := by
              constructor
              · intro either
                refine either.resolve_right fun other => ?_
                obtain ⟨reason, is, other⟩ := other
                exact Option.filter_eq_none_iff.mp refusal reason is other
              · exact .inl
            rw [placed] at advances
            by_cases new : 0 < accepted
            · have more : (conn.syncHeaders && decide (0 < accepted)) = true := by simp [sync, new]
              refine (congrArg (meets _ _ · _ _) (if_pos more)).mpr ?_
              refine meets_bind_of (meets_sendGetheaders open_) ?_ ?_
              · intro s₂ r asked
                obtain ⟨-, rfl⟩ := asked
                refine ⟨⟨rfl, rfl⟩, (congrArg Prod.fst grown).symm, ?_⟩
                rw [if_pos (advances.mp new)]
              · intro _ _ never
                cases never.1
            · have enough : ¬(conn.syncHeaders && decide (0 < accepted)) = true := by simp [new]
              refine (congrArg (meets _ _ · _ _) (if_neg enough)).mpr ?_
              refine ⟨⟨rfl, rfl⟩, (congrArg Prod.fst grown).symm, ?_⟩
              rw [if_neg (mt advances.mpr new), List.append_nil]
      · intro _ _ never
        cases never.2

/-! ## The loop -/

/-- A session that waits for the answer to the locator of its tree. -/
def Asking (net : Network H) (s : Sync H) : Prop :=
  (∃ held, Synced net s.tree held) ∧ s.requests = [request net s.tree]

omit [LinearOrder H] in
theorem outstanding_of_ne {s : Sync H} {q : Question H} (handler : q ≠ .select) :
    s.Outstanding q := by
  cases q with
  | select => exact absurd rfl handler
  | _ => trivial

omit [LinearOrder H] in
theorem outstanding_of_aside {s : Sync H} {q : Question H} (aside : q.Aside) : s.Outstanding q := by
  cases q with
  | select => cases aside
  | _ => trivial

/-- A reply to the locator advances the tree exactly if it teaches it something. -/
theorem Asking.advances {s : Sync H} {held : Set (List (Header H))} (S : Synced net s.tree held)
    (P : Invariant net peer) (advances : peer.getHeadersFromLocator net s.tree.buildLocator
      net.zeroHash ≠ []) :
    HeaderTree.Advances (s.tree.insertBatch net
        (peer.getHeadersFromLocator net s.tree.buildLocator net.zeroHash)).2 ↔
      s.tree.Teaches net (peer.getHeadersFromLocator net s.tree.buildLocator net.zeroHash) :=
  S.toRepresents.insertBatch_advances (P.reply_linked _) (S.invariant.reply_bottom P) advances

variable (codec : AddrCodec)

theorem meets_messageLoop (P : Invariant net peer) (fuel : Nat) {conn : Connection H}
    (sync : conn.syncHeaders = true) {s : Sync H} (asking : Asking net s) :
    meets ((serves net peer).restrict (Learns net)) Outstanding
      (conn.messageLoop net codec fuel) (EndsWell peer) s := by
  induction fuel generalizing conn s with
  | zero => trivial
  | succ fuel ih =>
      have waiting : s.requests ≠ [] := by rw [asking.2]; exact List.cons_ne_nil _ _
      have unasked {e : AnyError} {conn' : Connection H} (other : e.isSyncComplete = false) :
          EndsWell (R := Connection H) peer s (.error (e, conn')) :=
        ⟨fun idle => absurd idle waiting, fun complete => absurd complete (by simp [other])⟩
      have aside {p : Handler H (Connection H)} (asides : conn.Asides p id) :
          meets ((serves net peer).restrict (Learns net)) Outstanding
            (p.bind fun conn => conn.messageLoop net codec fuel) (EndsWell peer) s := by
        refine meets_bind_of (meets_restrict (meets_of_asides asides fun _ => outstanding_of_aside))
          ?_ ?_
        · intro s' conn' reached
          obtain ⟨rfl, same⟩ := reached
          exact ih (same.2.trans sync) asking
        · intro s' e reached
          obtain ⟨rfl, other⟩ := reached
          exact unasked other
      refine meets_question_bind waiting fun woken s' answer => ?_
      obtain ⟨answer, teaches⟩ := answer
      cases woken with
      | tick =>
          obtain rfl : s' = s := answer
          exact aside Connection.asides_pingTick
      | failed e =>
          obtain rfl : s' = s := answer
          exact unasked rfl
      | message msg =>
          by_cases reply : ∃ headers, msg = .headers headers
          · obtain ⟨headers, rfl⟩ := reply
            obtain ⟨⟨held, S⟩, asked⟩ := asking
            obtain ⟨request, rest, front, rfl, rfl⟩ := answer
            obtain ⟨rfl, rfl⟩ := List.cons.inj (asked.symm.trans front)
            -- The reply is handled with no request out.
            have replied (counted : Connection H) (sync : counted.syncHeaders = true) :
                meets (serves net peer) Outstanding (counted.handleHeaders net
                  (peer.getHeadersFromLocator net s.tree.buildLocator net.zeroHash))
                  (Handled net counted (peer.getHeadersFromLocator net s.tree.buildLocator
                    net.zeroHash) ⟨s.tree, []⟩) ⟨s.tree, []⟩ :=
              meets_handleHeaders sync (fun _ _ => outstanding_of_ne) (Asking.advances S P)
            refine meets_bind_of (meets_restrict (replied _ sync)) ?_ ?_
            · intro s' conn' handled
              obtain ⟨same, tree, requests⟩ := handled
              refine ih (same.2.trans sync) ⟨?_, requests.trans (if_pos teaches)⟩
              rw [tree]
              exact S.insertBatch _
            · intro s' e handled
              obtain ⟨-, finished, complete⟩ := handled
              refine ⟨fun _ => finished, fun is => ?_⟩
              obtain ⟨empty, rfl⟩ := complete is
              exact S.invariant.tip_mem_of_empty_reply P empty
          · have answer : msg.aside = true ∧ s' = s := by
              cases msg with
              | headers headers => exact absurd ⟨headers, rfl⟩ reply
              | _ => exact answer
            obtain ⟨is, rfl⟩ := answer
            exact aside (Connection.asides_handleMessage net codec is)

theorem meets_run (P : Invariant net peer) (fuel : Nat) {conn : Connection H}
    (sync : conn.syncHeaders = true) {tree : HeaderTree H} {held : Set (List (Header H))}
    (S : Synced net tree held) :
    meets ((serves net peer).restrict (Learns net)) Outstanding (conn.run net codec fuel)
      (EndsWell peer) ⟨tree, []⟩ := by
  -- What goes out before the first getheaders.
  have sends {message : NetworkMessage H} (other : ∀ request, message ≠ .getHeaders request)
      {conn : Connection H} {f : Unit → Handler H (Connection H)}
      (rest : meets ((serves net peer).restrict (Learns net)) Outstanding (f ()) (EndsWell peer)
        ⟨tree, []⟩) : meets ((serves net peer).restrict (Learns net)) Outstanding
          ((conn.send message).bind f) (EndsWell peer) ⟨tree, []⟩ := by
    refine meets_question_bind trivial fun failed s' answer => ?_
    have sent : failed = none ∧ s' = ⟨tree, []⟩ := by
      cases message with
      | getHeaders request => exact absurd rfl (other request)
      | _ => exact answer.1
    obtain ⟨rfl, rfl⟩ := sent
    exact rest
  refine sends (by simp) (sends (by simp) (sends (by simp) ?_))
  refine meets_bind_of (meets_restrict (meets_sendGetheaders fun _ _ => outstanding_of_ne)) ?_ ?_
  · intro s' _ asked
    obtain ⟨-, rfl⟩ := asked
    have begun : Asking net ⟨tree, [] ++ [request net tree]⟩ := ⟨⟨held, S⟩, rfl⟩
    have still : ({ conn with getaddrOutstanding := true } : Connection H).syncHeaders = true :=
      sync
    exact meets_messageLoop codec P fuel still begun
  · intro _ _ never
    cases never.1

end Sync

/-! ## Every exchange -/

/-- What holds along an exchange: the session never waits with no request outstanding, without
    one it ends only with the sync complete or on another chain, and a complete sync has the
    peer's tip. -/
structure SyncAdvances (peer : HeaderTree H) (rest : Handler H (Connection H)) (s : Sync H) :
    Prop where
  waiting : ∀ next, rest = .ask .select next → s.requests ≠ []
  ended : ∀ e conn, rest = .fail (e, conn) → s.requests = [] → Sync.Finished e
  complete : ∀ e conn, rest = .fail (e, conn) → e.isSyncComplete = true →
    peer.tip ∈ s.tree.headers

/-- Against any peer, an exchange whose replies each teach our tree something or are empty
    advances to its end; and a reply is what makes the session ask again or end exactly if it
    does. -/
theorem run_headerSync (net : Network H) (codec : AddrCodec)
    (checkpoints peerCheckpoints : List (Checkpoint H))
    (distinct : (checkpoints.map Checkpoint.height).Nodup)
    (distinct' : (peerCheckpoints.map Checkpoint.height).Nodup)
    (batches peerBatches : List (List (Header H))) {conn : Connection H}
    (sync : conn.syncHeaders = true) :
    let tree := HeaderTree.run net checkpoints batches
    let peer := HeaderTree.run net peerCheckpoints peerBatches
    (∀ fuel trace rest s, Reaches (conn.run net codec fuel) trace rest →
      ((Sync.serves net peer).restrict (Sync.Learns net)).Serves ⟨tree, []⟩ trace s →
      SyncAdvances peer rest s) ∧
    ∀ headers, headers = peer.getHeadersFromLocator net tree.buildLocator net.zeroHash →
      ∀ trace rest s, Reaches (conn.handleHeaders net headers) trace rest →
        (Sync.serves net peer).Serves ⟨tree, []⟩ trace s →
        (∀ conn', rest = .done conn' → (s.requests ≠ [] ↔ tree.Teaches net headers)) ∧
          ∀ e conn', rest = .fail (e, conn') → Sync.Finished e ∧ tree.Teaches net headers := by
  intro tree peer
  obtain ⟨held, S⟩ : ∃ held, Synced net tree held := run_synced net checkpoints distinct batches
  have P : Invariant net peer := run_invariant net peerCheckpoints distinct' peerBatches
  clear_value tree peer
  constructor
  · intro fuel trace rest s reaches served
    have meets := reaches.meets served (Sync.meets_run codec P fuel sync S)
    constructor
    case waiting =>
      rintro next rfl
      exact meets.1
    case ended =>
      rintro e conn rfl
      exact meets.1
    case complete =>
      rintro e conn rfl
      exact meets.2
  · rintro headers rfl trace rest s reaches served
    have handled : meets (Sync.serves net peer) (fun _ _ => True)
        (conn.handleHeaders net (peer.getHeadersFromLocator net tree.buildLocator net.zeroHash))
        (Sync.Handled net conn (peer.getHeadersFromLocator net tree.buildLocator net.zeroHash)
          ⟨tree, []⟩) ⟨tree, []⟩ :=
      Sync.meets_handleHeaders sync (fun _ _ _ => trivial)
        (Sync.Asking.advances (s := ⟨tree, []⟩) S P)
    have meets := reaches.meets served handled
    constructor
    · rintro conn' rfl
      obtain ⟨-, -, requests⟩ := meets
      rw [requests]
      split <;> simp_all
    · rintro e conn' rfl
      exact ⟨meets.2.1, meets.1⟩

/-! ## A peer that is behind -/

/-- The peer's answer to the oldest request, if there is one. -/
def Sync.reply (net : Network H) (peer : HeaderTree H) (s : Sync H) : Option (Woken H × Sync H) :=
  match s.requests with
  | [] => none
  | request :: requests => some (.message (.headers
      (peer.getHeadersFromLocator net request.locatorHashes request.stopHash)),
      { s with requests })

/-- An exchange that needs no clock: one answer to each question, and none to a session that
    waits for nothing. -/
def Sync.answer (net : Network H) (peer : HeaderTree H) (s : Sync H) :
    (q : Question H) → Option (Answer q × Sync H)
  | .send (.getHeaders request) => some (none, { s with requests := s.requests ++ [request] })
  | .send _ => some (none, s)
  | .select => s.reply net peer
  | .tip => some ((s.tree.tip, s.tree.tipHeight), s)
  | .seenEach hashes => some (hashes.map s.tree.seen, s)
  | .insertBatch headers =>
      let (tree, result) := s.tree.insertBatch net headers
      some (result, { s with tree })
  | .buildLocator => some (s.tree.buildLocator, s)
  | _ => none

theorem Sync.answer_serves (net : Network H) (peer : HeaderTree H) (s : Sync H) (q : Question H)
    (a : Answer q) (s' : Sync H) (answered : s.answer net peer q = some (a, s')) :
    Sync.serves net peer s q a s' := by
  cases q with
  | send message => cases message <;> cases answered <;> exact ⟨rfl, rfl⟩
  | select =>
      change s.reply net peer = some (a, s') at answered
      unfold Sync.reply at answered
      split at answered
      · cases answered
      · rename_i request requests front
        cases answered
        exact ⟨request, requests, front, rfl, rfl⟩
  | tip | seenEach | buildLocator => cases answered; exact ⟨⟨rfl, rfl⟩, rfl⟩
  | insertBatch headers => cases answered; exact ⟨rfl, rfl⟩
  | _ => cases answered

/-- Whether an answer teaches the tree something, if it is a reply. -/
def Sync.learns (net : Network H) (s : Sync H) : (q : Question H) → Answer q → Bool
  | .select, .message (.headers headers) => s.tree.Teaches net headers
  | _, _ => true

theorem Sync.learns_iff {net : Network H} {s : Sync H} {q : Question H} {a : Answer q} :
    s.learns net q a = true ↔ s.Learns net q a := by
  unfold Sync.learns Sync.Learns
  split
  · exact decide_eq_true_iff
  · simp

/-- The exchange up to the first reply that teaches nothing. -/
def Sync.answerNew (net : Network H) (peer : HeaderTree H) (s : Sync H) (q : Question H) :
    Option (Answer q × Sync H) :=
  (s.answer net peer q).filter fun answered => s.learns net q answered.1

theorem Sync.answerNew_serves (net : Network H) (peer : HeaderTree H) (s : Sync H)
    (q : Question H) (a : Answer q) (s' : Sync H)
    (answered : s.answerNew net peer q = some (a, s')) :
    (Sync.serves net peer).restrict (Sync.Learns net) s q a s' := by
  obtain ⟨answered, learns⟩ := Option.filter_eq_some_iff.mp answered
  exact ⟨Sync.answer_serves net peer s q a s' answered, Sync.learns_iff.mp learns⟩

/-- A session's exchange as far as it is answered: what is left of it, and its surroundings. -/
def Sync.play (answer : Sync H → (q : Question H) → Option (Answer q × Sync H)) (net : Network H)
    (codec : AddrCodec) (fuel : Nat) (conn : Connection H) (tree : HeaderTree H) :
    List (Exchange (Question H) Answer) × Handler H (Connection H) × Sync H :=
  (conn.run net codec fuel).against answer ⟨tree, []⟩

theorem Sync.play_spec {answer : Sync H → (q : Question H) → Option (Answer q × Sync H)}
    {service : Service (Question H) Answer (Sync H)}
    (serves : ∀ s q a s', answer s q = some (a, s') → service s q a s') (net : Network H)
    (codec : AddrCodec) (fuel : Nat) (conn : Connection H) (tree : HeaderTree H) :
    Reaches (conn.run net codec fuel) (play answer net codec fuel conn tree).1
        (play answer net codec fuel conn tree).2.1 ∧
      service.Serves ⟨tree, []⟩ (play answer net codec fuel conn tree).1
        (play answer net codec fuel conn tree).2.2 :=
  against_spec serves _ _

/-- Whether a session waits for something to happen. -/
def isWaiting {R : Type} : Handler H R → Bool
  | .ask .select _ => true
  | _ => false

omit [LinearOrder H] in
theorem isWaiting_iff {R : Type} {p : Handler H R} :
    isWaiting p = true ↔ ∃ next, p = .ask .select next := by
  constructor
  · intro waits
    unfold isWaiting at waits
    split at waits
    · exact ⟨_, rfl⟩
    · cases waits
  · intro is
    obtain ⟨next, rfl⟩ := is
    rfl

namespace Stall

/-- No message of the exchange needs a codec. -/
def codec : AddrCodec where
  socketAddr _ := none
  readCompactSize _ := none
  emitCompactSize _ := []
  deserializeAddrV2 _ := none

def conn : Connection (List Nat) :=
  let version : VersionMessage :=
    { version := 70016, services := 1, timestamp := 0, receiver := ⟨0, [], 0⟩, nonce := 0,
      userAgent := "", startHeight := 0, relay := false }
  .new 0 0 0 ⟨version, true, true⟩ (.ipv4 ⟨[10, 7, 5, 3], rfl⟩ 8333) 2 1 true false

def block₁ : Header (List Nat) := Params.mine Params.mainnet.genesis 81 1231006600 0x1d00ffff

def block₂ : Header (List Nat) := Params.mine block₁ 82 1231006700 0x1d00ffff

def block₃ : Header (List Nat) := Params.mine block₂ 83 1231006800 0x1d00ffff

/-- The tree that has been given some blocks. -/
def tree (blocks : List (Header (List Nat))) : HeaderTree (List Nat) :=
  .run Params.mainnet.network [] [blocks]

end Stall

/-- Every exchange advances to its end. -/
def HeaderSyncAdvances (net : Network H) (codec : AddrCodec) (tree peer : HeaderTree H)
    (conn : Connection H) : Prop :=
  ∀ fuel trace rest s, Reaches (conn.run net codec fuel) trace rest →
    (Sync.serves net peer).Serves ⟨tree, []⟩ trace s → SyncAdvances peer rest s

open Stall in
/-- A peer that has only the first of our three blocks answers the locator of our tree, which
    names genesis, with that block. The session then waits for nothing. -/
theorem sync_stalls_behind :
    ¬ HeaderSyncAdvances Params.mainnet.network codec (tree [block₁, block₂, block₃])
      (tree [block₁]) conn := by
  intro advances
  obtain ⟨reaches, served⟩ := Sync.play_spec (Sync.answer_serves Params.mainnet.network
    (tree [block₁])) Params.mainnet.network codec 3 conn (tree [block₁, block₂, block₃])
  have sound := advances _ _ _ _ reaches served
  have waits : isWaiting (Sync.play (Sync.answer Params.mainnet.network (tree [block₁]))
      Params.mainnet.network codec 3 conn (tree [block₁, block₂, block₃])).2.1 = true := by
    decide +kernel
  have idle : (Sync.play (Sync.answer Params.mainnet.network (tree [block₁]))
      Params.mainnet.network codec 3 conn
        (tree [block₁, block₂, block₃])).2.2.requests.isEmpty = true := by
    decide +kernel
  obtain ⟨next, is⟩ := isWaiting_iff.mp waits
  exact sound.waiting next is (List.isEmpty_iff.mp idle)

open Stall in
/-- A peer with two blocks more. -/
theorem run_headerSync_ahead :
    let played := Sync.play
      (Sync.answerNew Params.mainnet.network (tree [block₁, block₂, block₃]))
      Params.mainnet.network codec 3 conn (tree [block₁])
    SyncAdvances (tree [block₁, block₂, block₃]) played.2.1 played.2.2 := by
  intro played
  obtain ⟨reaches, served⟩ := Sync.play_spec (Sync.answerNew_serves Params.mainnet.network
    (tree [block₁, block₂, block₃])) Params.mainnet.network codec 3 conn (tree [block₁])
  exact (run_headerSync Params.mainnet.network codec [] [] (by decide) (by decide) [[block₁]]
    [[block₁, block₂, block₃]] rfl).1 3 _ _ _ reaches served

end P2PObserver
