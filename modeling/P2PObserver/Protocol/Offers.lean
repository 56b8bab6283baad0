import P2PObserver.Protocol.Bootstrap

/-! # What the version handshake sends

Our version goes out first and every version of the peer's is answered in full. The answers
are in order as long as the peer sends one version.
-/

namespace P2PObserver

open Program

variable {H : Type}

/-! ## Transcripts -/

/-- The messages a trace of the handshake sends. -/
def sentOf (trace : List (Exchange (Question H) Answer)) : List (NetworkMessage H) :=
  trace.filterMap fun x =>
    match x.1 with
    | .handshakeSend message => some message
    | _ => none

/-- The messages it receives. -/
def receivedOf (trace : List (Exchange (Question H) Answer)) : List (NetworkMessage H) :=
  trace.filterMap fun
    | ⟨.handshakeRecv, .finished (.ok message)⟩ => some message
    | _ => none

/-- Whether one of its sends failed. -/
def sendFailed (trace : List (Exchange (Question H) Answer)) : Bool :=
  trace.any fun
    | ⟨.handshakeSend _, .finished none⟩ => false
    | ⟨.handshakeSend _, _⟩ => true
    | _ => false

/-- The version messages among some messages, as the handshake keeps them. -/
def versionsOf (messages : List (NetworkMessage H)) : List VersionMessage :=
  messages.filterMap fun
    | .version v => some { v with userAgent := capUserAgent v.userAgent }
    | _ => none

/-- A version and a verack are among the messages. -/
def Both (messages : List (NetworkMessage H)) : Prop :=
  (∃ v, .version v ∈ messages) ∧ .verack ∈ messages

/-- What the handshake sends and returns, as it should be. -/
structure HandshakeExact (trace : List (Exchange (Question H) Answer))
    (end_ : Except (Timed AnyError) HandshakeInfo) : Prop where
  first : ∃ v rest, sentOf trace = .version v :: rest ∧ ∀ w, .version w ∉ rest
  once : ∀ before after, (sentOf trace = before ++ .sendAddrV2 :: after → .sendAddrV2 ∉ after) ∧
    (sentOf trace = before ++ .wtxidRelay :: after → .wtxidRelay ∉ after) ∧
    (sentOf trace = before ++ .verack :: after → .verack ∉ after)
  order : ∀ before after, sentOf trace = before ++ .verack :: after →
    .sendAddrV2 ∉ after ∧ .wtxidRelay ∉ after
  prompt : ∀ before after, receivedOf trace = before ++ after → Both before → after = []
  returns : (∃ info, end_ = .ok info) ↔ Both (receivedOf trace) ∧ sendFailed trace = false
  flags : ∀ info, end_ = .ok info →
    (info.sendAddrV2 = true ↔ .sendAddrV2 ∈ receivedOf trace) ∧
      (info.wtxidRelay = true ↔ .wtxidRelay ∈ receivedOf trace)

/-- What has passed in a handshake. -/
structure Transcript (H : Type) where
  sent : List (NetworkMessage H)
  received : List (NetworkMessage H)
  failed : Bool

namespace Transcript

def next (t : Transcript H) : (q : Question H) → Answer q → Transcript H
  | .handshakeSend message, .finished none => { t with sent := t.sent ++ [message] }
  | .handshakeSend message, _ => { t with sent := t.sent ++ [message], failed := true }
  | .handshakeRecv, .finished (.ok message) => { t with received := t.received ++ [message] }
  | _, _ => t

def monitor : Monitor (Question H) Answer (Transcript H) := ⟨fun _ _ => True, next⟩

theorem after_eq (trace : List (Exchange (Question H) Answer)) : ∀ t : Transcript H,
    monitor.after t trace = ⟨t.sent ++ sentOf trace, t.received ++ receivedOf trace,
      t.failed || sendFailed trace⟩ := by
  induction trace with
  | nil => simp [Monitor.after, sentOf, receivedOf, sendFailed]
  | cons x rest ih =>
      intro t
      have step : monitor.after t (x :: rest) = monitor.after (t.next x.1 x.2) rest := rfl
      rw [step, ih]
      obtain ⟨q, a⟩ := x
      cases q with
      | handshakeSend message =>
          rcases a with _ | _ | e <;> simp [next, sentOf, receivedOf, sendFailed]
      | handshakeRecv => rcases a with _ | e | message <;> simp [next, sentOf, receivedOf, sendFailed]
      | _ => simp [next, sentOf, receivedOf, sendFailed]

/-- The transcript with more sent. -/
def add (t : Transcript H) (messages : List (NetworkMessage H)) : Transcript H :=
  { t with sent := t.sent ++ messages }

theorem add_add (t : Transcript H) (messages more : List (NetworkMessage H)) :
    (t.add messages).add more = t.add (messages ++ more) := by
  rw [add, add, add, List.append_assoc]

end Transcript

namespace VersionHandshake

open Transcript

/-! ## Sending -/

/-- Sends all of the messages, or fails at one of them. -/
def Sends {R : Type} (t : Transcript H) (messages : List (NetworkMessage H)) (t' : Transcript H) :
    Except (Timed AnyError) R → Prop
  | .ok _ => t' = t.add messages
  | .error _ => ∃ part, part ≠ [] ∧ part <+: messages ∧
      t' = { t.add part with failed := true }

theorem sends_send (t : Transcript H) (message : NetworkMessage H) :
    wp monitor (send message) (Sends t [message]) t := by
  refine wp_question_bind trivial fun a => ?_
  rcases a with _ | _ | e
  · exact ⟨[message], by simp, List.prefix_rfl, rfl⟩
  · rfl
  · exact ⟨[message], by simp, List.prefix_rfl, rfl⟩

theorem sends_bind {R : Type} {t : Transcript H} {messages more : List (NetworkMessage H)}
    {p : Handshaking H Unit} {f : Unit → Handshaking H R} (first : wp monitor p (Sends t messages) t)
    (rest : wp monitor (f ()) (Sends (t.add messages) more) (t.add messages)) :
    wp monitor (p.bind f) (Sends t (messages ++ more)) t := by
  apply wp_bind_of first
  · intro t' r sent
    obtain rfl : t' = t.add messages := sent
    apply wp_mono rest
    intro t' end_ reached
    cases end_ with
    | ok r => exact reached.trans (t.add_add messages more)
    | error e =>
        obtain ⟨part, filled, inside, rfl⟩ := reached
        refine ⟨messages ++ part, by simp [filled], ?_, ?_⟩
        · exact (List.prefix_append_right_inj messages).mpr inside
        · rw [add_add]
  · intro t' e failed
    obtain ⟨part, filled, inside, rfl⟩ := failed
    exact ⟨part, filled, inside.trans (List.prefix_append ..), rfl⟩

theorem sends_sendIf (t : Transcript H) (wanted : Bool) (message : NetworkMessage H) :
    wp monitor (sendIf wanted message) (Sends t (if wanted then [message] else [])) t := by
  unfold sendIf
  cases wanted with
  | false =>
      have nothing : t = t.add [] := by
        rw [add, List.append_nil]
      exact nothing
  | true => exact sends_send t message

/-- What is sent in answer to a version message. -/
def offers (v : VersionMessage) : List (NetworkMessage H) :=
  (if !skipSendAddrV2 v then [.sendAddrV2] else []) ++
    ((if decide (WTXID_RELAY_VERSION ≤ v.version) then [.wtxidRelay] else []) ++ [.verack])

theorem sends_answer (t : Transcript H) (v : VersionMessage) :
    wp monitor (answer v) (Sends t (offers v)) t :=
  sends_bind (sends_sendIf t (!skipSendAddrV2 v) .sendAddrV2)
    (sends_bind (sends_sendIf _ (decide (WTXID_RELAY_VERSION ≤ v.version)) .wtxidRelay)
      (sends_send _ .verack))

/-! ## The loop -/

/-- The state of the loop is what has been received. -/
structure Heard (st : State) (received : List (NetworkMessage H)) : Prop where
  version : st.peerVersion.isSome = true ↔ ∃ v, .version v ∈ received
  verack : st.gotVerack = true ↔ .verack ∈ received
  addr : st.sendAddrV2 = true ↔ .sendAddrV2 ∈ received
  relay : st.wtxidRelay = true ↔ .wtxidRelay ∈ received

theorem Heard.both_iff {st : State} {received : List (NetworkMessage H)} (h : Heard st received) :
    Both received ↔ st.info.isSome = true := by
  rw [State.info_isSome, Bool.and_eq_true, h.version, h.verack]
  rfl

/-- The transcript of a loop that is still going, after our own version. -/
structure Going (own : NetworkMessage H) (st : State) (t : Transcript H) : Prop where
  ok : t.failed = false
  sent : t.sent = own :: (versionsOf t.received).flatMap offers
  heard : Heard st t.received
  prompt : ∀ before after, t.received = before ++ after → Both before → after = []

/-- The transcript of a handshake that has ended. -/
structure Ended (own : NetworkMessage H) (t : Transcript H)
    (end_ : Except (Timed AnyError) HandshakeInfo) : Prop where
  sent : t.sent = own :: (versionsOf t.received).flatMap offers ∨
    ∃ earlier v part, versionsOf t.received = earlier ++ [v] ∧ part ≠ [] ∧ part <+: offers v ∧
      t.sent = own :: (earlier.flatMap offers ++ part)
  prompt : ∀ before after, t.received = before ++ after → Both before → after = []
  returns : (∃ info, end_ = .ok info) ↔ Both t.received ∧ t.failed = false
  flags : ∀ info, end_ = .ok info →
    (info.sendAddrV2 = true ↔ .sendAddrV2 ∈ t.received) ∧
      (info.wtxidRelay = true ↔ .wtxidRelay ∈ t.received)

theorem both_append {messages : List (NetworkMessage H)} (both : Both messages)
    (more : List (NetworkMessage H)) : Both (messages ++ more) := by
  obtain ⟨⟨v, version⟩, verack⟩ := both
  exact ⟨⟨v, List.mem_append_left _ version⟩, List.mem_append_left _ verack⟩

theorem prompt_concat {received : List (NetworkMessage H)} (message : NetworkMessage H)
    (unfinished : ¬ Both received) :
    ∀ before after, received ++ [message] = before ++ after → Both before → after = [] := by
  intro before after split both
  rcases List.eq_nil_or_concat after with empty | ⟨rest, last, rfl⟩
  · exact empty
  · rw [List.concat_eq_append, ← List.append_assoc] at split
    obtain ⟨same, -⟩ := List.append_inj' split rfl
    exact absurd (same ▸ both_append both rest) unfinished

theorem versionsOf_concat (received : List (NetworkMessage H)) (message : NetworkMessage H) :
    versionsOf (received ++ [message]) = versionsOf received ++ versionsOf [message] :=
  List.filterMap_append ..

/-- A message that is not a version adds nothing to what is sent. -/
theorem Going.other {own message : NetworkMessage H} {st st' : State} {t : Transcript H}
    (going : Going own st t) (unfinished : ¬ Both t.received) (silent : versionsOf [message] = [])
    (heard : Heard st' (t.received ++ [message])) :
    Going own st' { t with received := t.received ++ [message] } where
  ok := going.ok
  sent := by
    rw [versionsOf_concat, silent, List.append_nil]
    exact going.sent
  heard := heard
  prompt := prompt_concat message unfinished

/-- What the loop comes to after one more message. -/
def Reached (own : NetworkMessage H) (t : Transcript H) : Except (Timed AnyError) State → Prop
  | .ok st => Going own st t
  | .error e => Ended own t (.error e)

theorem reached_receive {own : NetworkMessage H} {st : State} {t : Transcript H}
    (going : Going own st t) (unfinished : ¬ Both t.received) (message : NetworkMessage H) :
    wp monitor (receive st message) (Reached own)
      { t with received := t.received ++ [message] } := by
  obtain ⟨version, verack, addr, relay⟩ := going.heard
  cases message with
  | version v =>
      have kept : versionsOf (t.received ++ [NetworkMessage.version v]) =
          versionsOf t.received ++ [{ v with userAgent := capUserAgent v.userAgent }] :=
        versionsOf_concat ..
      apply wp_bind_of (sends_answer _ _)
      · intro t' r sent
        obtain rfl := sent
        refine ⟨going.ok, ?_, ?_, prompt_concat _ unfinished⟩
        · simp [add, kept, going.sent]
        · exact ⟨by simp [add], by simpa [add] using verack, by simpa [add] using addr,
            by simpa [add] using relay⟩
      · intro t' e failed
        obtain ⟨part, filled, inside, rfl⟩ := failed
        refine ⟨.inr ⟨_, _, part, kept, filled, inside, ?_⟩, prompt_concat _ unfinished, ?_, ?_⟩
        · simp [add, going.sent]
        · simp
        · intro info returned
          cases returned
  | verack =>
      apply going.other unfinished rfl
      exact ⟨by simpa using version, by simp, by simpa using addr, by simpa using relay⟩
  | sendAddrV2 =>
      apply going.other unfinished rfl
      exact ⟨by simpa using version, by simpa using verack, by simp, by simpa using relay⟩
  | wtxidRelay =>
      apply going.other unfinished rfl
      exact ⟨by simpa using version, by simpa using verack, by simpa using addr, by simp⟩
  | _ =>
      apply going.other unfinished rfl
      exact ⟨by simpa using version, by simpa using verack, by simpa using addr,
        by simpa using relay⟩

/-- The loop is over without our having failed to send anything. -/
theorem Going.ended {own : NetworkMessage H} {st : State} {t : Transcript H}
    {end_ : Except (Timed AnyError) HandshakeInfo} (going : Going own st t)
    (over_ : ∀ info, end_ = .ok info ↔ st.info = some info) : Ended own t end_ where
  sent := .inl going.sent
  prompt := going.prompt
  returns := by
    rw [going.heard.both_iff, Option.isSome_iff_exists]
    simp only [over_, going.ok, and_true]
  flags := by
    intro info returned
    have known := (over_ info).mp returned
    unfold State.info at known
    split at known
    · cases known
      exact ⟨going.heard.addr, going.heard.relay⟩
    · cases known

theorem ended_loop (fuel : Nat) {own : NetworkMessage H} {st : State} {t : Transcript H}
    (going : Going own st t) :
    wp monitor (loop fuel st) (fun t' end_ => Ended own t' end_) t := by
  induction fuel generalizing st t with
  | zero => trivial
  | succ fuel ih =>
      unfold loop
      cases known : st.info with
      | some info =>
          apply going.ended
          intro info'
          simp [known]
      | none =>
          have unfinished : ¬ Both t.received := by
            rw [going.heard.both_iff, known]
            exact Bool.false_ne_true
          have gives_up : ∀ e, Ended own t (.error e) := by
            intro e
            apply going.ended
            intro info
            simp [known]
          refine wp_question_bind trivial fun a => ?_
          rcases a with _ | e | message
          · exact gives_up _
          · exact gives_up _
          · apply wp_bind_of (reached_receive going unfinished message)
            · exact fun t' st' going' => ih going'
            · exact fun t' e ended => ended

/-- What the handshake sends, from its start. -/
theorem ended_run (fuel : Nat) (userAgent : String) (tipHeight : Int) :
    wp monitor (run fuel userAgent tipHeight : Handshaking H HandshakeInfo)
      (fun t end_ => ∃ timestamp nonce,
        Ended (buildVersion userAgent tipHeight timestamp nonce) t end_) ⟨[], [], false⟩ := by
  refine wp_question_bind trivial fun timestamp => ?_
  refine wp_question_bind trivial fun nonce => ?_
  have silent : ∀ before after, ([] : List (NetworkMessage H)) = before ++ after → Both before →
      after = [] := by
    intro before after split _
    exact (List.append_eq_nil_iff.mp split.symm).2
  apply wp_bind_of (sends_send _ _)
  · intro t r sent
    obtain rfl := sent
    have begun : Going (buildVersion userAgent tipHeight timestamp nonce)
        ⟨none, false, false, false⟩ (⟨[buildVersion userAgent tipHeight timestamp nonce], [], false⟩
          : Transcript H) :=
      ⟨rfl, rfl, ⟨by simp, by simp, by simp, by simp⟩, silent⟩
    exact wp_mono (ended_loop fuel begun) fun t end_ ended => ⟨timestamp, nonce, ended⟩
  · intro t e failed
    obtain ⟨part, filled, inside, rfl⟩ := failed
    obtain rfl : part = [buildVersion userAgent tipHeight timestamp nonce] := by
      rcases List.prefix_cons_iff.mp inside with empty | ⟨rest, rfl, more⟩
      · exact absurd empty filled
      · rw [List.prefix_nil.mp more]
    refine ⟨timestamp, nonce, .inl rfl, silent, ?_, ?_⟩
    · simp
    · intro info returned
      cases returned

/-! ## Exactly one version -/

theorem mem_offers {v : VersionMessage} {message : NetworkMessage H} (sent : message ∈ offers v) :
    message = .sendAddrV2 ∨ message = .wtxidRelay ∨ message = .verack := by
  unfold offers at sent
  cases skipSendAddrV2 v <;> cases decide (WTXID_RELAY_VERSION ≤ v.version) <;> simp at sent <;>
    grind

/-- The offers end with the verack. -/
theorem offers_eq (v : VersionMessage) : ∃ before, (offers v : List (NetworkMessage H)) =
    before ++ [.verack] := by
  refine ⟨(if !skipSendAddrV2 v then [.sendAddrV2] else []) ++
    (if decide (WTXID_RELAY_VERSION ≤ v.version) then [.wtxidRelay] else []), ?_⟩
  rw [offers, List.append_assoc]

/-- The order in which a handshake sends. -/
def rank : NetworkMessage H → Nat
  | .version _ => 0
  | .sendAddrV2 => 1
  | .wtxidRelay => 2
  | .verack => 3
  | _ => 4

/-- Our version and the answers to one of the peer's go out in order. -/
theorem rising_offers (own v : VersionMessage) {part : List (NetworkMessage H)}
    (inside : part <+: offers v) :
    (.version own :: part : List (NetworkMessage H)).Pairwise fun m m' => rank m < rank m' := by
  have all : (.version own :: offers v : List (NetworkMessage H)).Pairwise
      fun m m' => rank m < rank m' := by
    unfold offers
    cases skipSendAddrV2 v <;> cases decide (WTXID_RELAY_VERSION ≤ v.version) <;> simp [rank]
  exact all.sublist (inside.sublist.cons_cons _)

/-- In a list that rises, nothing of lower or equal rank comes after. -/
theorem not_mem_of_rising {sent before after : List (NetworkMessage H)}
    {message later : NetworkMessage H} (rising : sent.Pairwise fun m m' => rank m < rank m')
    (split : sent = before ++ message :: after) (le : rank later ≤ rank message) :
    later ∉ after := by
  intro member
  rw [split, List.pairwise_append, List.pairwise_cons] at rising
  have lt := rising.2.1.1 later member
  omega

/-- Past the first verack the answers to another version are out of order. -/
theorem out_of_order {sent tail : List (NetworkMessage H)} {own : NetworkMessage H}
    {u w : VersionMessage} (split : sent = own :: (offers u ++ tail)) {message : NetworkMessage H}
    (again : message ∈ tail) (answer : message ∈ offers w) :
    ∃ before after, sent = before ++ .verack :: after ∧
      (.sendAddrV2 ∈ after ∨ .wtxidRelay ∈ after ∨ .verack ∈ after) := by
  obtain ⟨front, eq⟩ := offers_eq (H := H) u
  refine ⟨own :: front, tail, by simp [split, eq], ?_⟩
  rcases mem_offers answer with rfl | rfl | rfl
  · exact .inl again
  · exact .inr (.inl again)
  · exact .inr (.inr again)

theorem verack_mem_offers (v : VersionMessage) : (.verack : NetworkMessage H) ∈ offers v := by
  obtain ⟨front, eq⟩ := offers_eq (H := H) v
  simp [eq]

end VersionHandshake

open VersionHandshake

section Handshake

variable (fuel : Nat) (userAgent : String) (tipHeight : Int)

/-- What a handshake with an end sends and returns is as it should be exactly if the peer
    sent one version at most. -/
theorem handshakeExact_iff {trace : List (Exchange (Question H) Answer)}
    {end_ : Except (Timed AnyError) HandshakeInfo}
    (runs : Runs (run fuel userAgent tipHeight) trace (some end_)) :
    HandshakeExact trace end_ ↔ (versionsOf (receivedOf trace)).length ≤ 1 := by
  obtain ⟨-, ended⟩ := runs.sound (ended_run fuel userAgent tipHeight)
  obtain ⟨timestamp, nonce, E⟩ := ended end_ rfl
  rw [Transcript.after_eq] at E
  obtain ⟨sent, prompt, returns, flags⟩ := E
  obtain ⟨own, named⟩ : ∃ own, (buildVersion userAgent tipHeight timestamp nonce :
      NetworkMessage H) = .version own := ⟨_, rfl⟩
  simp only [List.nil_append, Bool.false_or, named] at sent prompt returns flags
  constructor
  · intro exact_
    by_contra more
    have disorder : ∃ before after, sentOf trace = before ++ .verack :: after ∧
        (.sendAddrV2 ∈ after ∨ .wtxidRelay ∈ after ∨ .verack ∈ after) := by
      rcases sent with eq | ⟨earlier, v, part, versions, filled, inside, eq⟩
      · match versions : versionsOf (receivedOf trace) with
        | [] | [_] => simp [versions] at more
        | u :: w :: rest =>
            rw [versions, List.flatMap_cons, List.flatMap_cons] at eq
            exact out_of_order eq (List.mem_append_left _ (verack_mem_offers w))
              (verack_mem_offers w)
      · cases earlier with
        | nil => simp [versions] at more
        | cons u rest =>
            obtain ⟨message, sent⟩ := List.exists_mem_of_ne_nil part filled
            rw [List.flatMap_cons, List.append_assoc] at eq
            exact out_of_order eq (List.mem_append_right _ sent) (inside.subset sent)
    obtain ⟨before, after, split, late⟩ := disorder
    rcases late with addr | relay | verack
    · exact (exact_.order before after split).1 addr
    · exact (exact_.order before after split).2 relay
    · exact (exact_.once before after).2.2 split verack
  · intro few
    have one : ∃ v part, part <+: offers v ∧ sentOf trace = .version own :: part := by
      rcases sent with eq | ⟨earlier, v, part, versions, -, inside, eq⟩
      · match versions : versionsOf (receivedOf trace) with
        | [] => exact ⟨own, [], List.nil_prefix, by simpa [versions] using eq⟩
        | [v] => exact ⟨v, offers v, List.prefix_rfl, by simpa [versions] using eq⟩
        | _ :: _ :: _ => simp [versions] at few
      · cases earlier with
        | nil => exact ⟨v, part, inside, eq⟩
        | cons u rest => simp [versions] at few
    obtain ⟨v, part, inside, eq⟩ := one
    have rising := eq ▸ rising_offers _ v inside
    refine ⟨⟨_, part, eq, ?_⟩, ?_, ?_, prompt, returns, flags⟩
    · intro w member
      rcases mem_offers (inside.subset member) with h | h | h <;> cases h
    · exact fun before after => ⟨fun split => not_mem_of_rising rising split le_rfl,
        fun split => not_mem_of_rising rising split le_rfl,
        fun split => not_mem_of_rising rising split le_rfl⟩
    · exact fun before after split => ⟨not_mem_of_rising rising split (by simp [rank]),
        not_mem_of_rising rising split (by simp [rank])⟩

/-! ## Enough fuel -/

theorem ends_send (message : NetworkMessage H) : (send message : Handshaking H Unit).Ends := by
  intro a
  rcases a with _ | _ | e <;> trivial

theorem ends_sendIf (wanted : Bool) (message : NetworkMessage H) :
    (sendIf wanted message : Handshaking H Unit).Ends := by
  unfold sendIf
  cases wanted with
  | false => trivial
  | true => exact ends_send message

theorem ends_receive (st : State) (message : NetworkMessage H) :
    (receive st message : Handshaking H State).Ends := by
  cases message with
  | version v =>
      have answers : (answer { v with userAgent := capUserAgent v.userAgent } :
          Handshaking H Unit).Ends :=
        (ends_sendIf _ _).bind fun _ => (ends_sendIf _ _).bind fun _ => ends_send _
      exact answers.bind fun _ => trivial
  | _ => trivial

theorem receivedOf_append (trace more : List (Exchange (Question H) Answer)) :
    receivedOf (trace ++ more) = receivedOf trace ++ receivedOf more :=
  List.filterMap_append ..

theorem loop_play (answers : Nat → (q : Question H) → Answer q) (st : State) (n : Nat)
    (unended : ((loop fuel st : Handshaking H HandshakeInfo).play answers n).2 = none) :
    fuel ≤ (receivedOf ((loop fuel st : Handshaking H HandshakeInfo).play answers n).1).length := by
  induction fuel generalizing st n with
  | zero => exact Nat.zero_le _
  | succ fuel ih =>
      unfold loop at unended ⊢
      cases known : st.info with
      | some info =>
          rw [known] at unended
          cases unended
      | none =>
          simp only [known, bind_eq, ask, question, Program.bind, play] at unended ⊢
          rcases got : answers n .handshakeRecv with _ | e | message
          · rw [got] at unended
            cases unended
          · rw [got] at unended
            cases unended
          · rw [got] at unended
            obtain ⟨end_, ended⟩ := (ends_receive st message).play answers (n + 1)
            rw [play_bind, ended] at unended ⊢
            cases end_ with
            | error e => cases unended
            | ok st' =>
                have rest := ih st' _ unended
                have one : receivedOf [(⟨.handshakeRecv, .finished (.ok message)⟩ :
                    Exchange (Question H) Answer)] = [message] := rfl
                rw [← List.singleton_append, receivedOf_append, one, receivedOf_append]
                simp only [List.length_append, List.length_singleton]
                omega

theorem run_play (answers : Nat → (q : Question H) → Answer q)
    (unended : ((run fuel userAgent tipHeight : Handshaking H HandshakeInfo).play answers 0).2 =
      none) :
    fuel ≤ (receivedOf
      ((run fuel userAgent tipHeight : Handshaking H HandshakeInfo).play answers 0).1).length := by
  simp only [run, bind_eq, ask, question, Program.bind, play] at unended ⊢
  generalize (buildVersion userAgent tipHeight (answers 0 .unixMs) (answers 1 .random) :
    NetworkMessage H) = own at unended ⊢
  obtain ⟨end_, ended⟩ := (ends_send own).play answers 2
  rw [play_bind, ended] at unended ⊢
  cases end_ with
  | error e => cases unended
  | ok =>
      have rest := loop_play fuel answers _ _ unended
      exact rest.trans
        (((List.sublist_append_right ..).cons _ |>.cons _).filterMap _).length_le

/-- A handshake ends unless its fuel goes into messages, and it is as it should be exactly if
    the peer sent one version at most before its end. -/
theorem run_handshakeExact_iff :
    (∀ answers : Nat → (q : Question H) → Answer q,
      ((run fuel userAgent tipHeight : Handshaking H HandshakeInfo).play answers 0).2 = none →
      fuel ≤ (receivedOf ((run fuel userAgent tipHeight :
        Handshaking H HandshakeInfo).play answers 0).1).length) ∧
    ∀ (trace : List (Exchange (Question H) Answer))
      (end_ : Except (Timed AnyError) HandshakeInfo),
      Runs (run fuel userAgent tipHeight) trace (some end_) →
      (HandshakeExact trace end_ ↔ (versionsOf (receivedOf trace)).length ≤ 1) :=
  ⟨run_play fuel userAgent tipHeight, fun _ _ => handshakeExact_iff fuel userAgent tipHeight⟩

end Handshake

/-! ## A version sent twice -/

namespace HungUp

/-- The peer sends its version twice before its verack. -/
def repeats : Nat → (q : Question (List Nat)) → Answer q :=
  answer (fun n => if n < 9 then .version version else .verack) fun _ => .failed eof

/-- The peer sends its version, then its verack. -/
def greets : Nat → (q : Question (List Nat)) → Answer q :=
  answer (fun n => if n < 4 then .version version else .verack) fun _ => .failed eof

end HungUp

/-- Our sendaddrv2 goes out again after our verack. -/
theorem repeated_version : ¬ ∀ (fuel : Nat) (userAgent : String) (tipHeight : Int)
    (trace : List (Exchange (Question (List Nat)) Answer))
    (end_ : Except (Timed AnyError) HandshakeInfo),
    Runs (run fuel userAgent tipHeight) trace (some end_) → HandshakeExact trace end_ := by
  intro claim
  have runs := runs_play HungUp.repeats (run 4 "/observer/" 0) 0
  have exact_ := claim _ _ _ _ _ runs
  have after := exact_.order [buildVersion "/observer/" 0 0 0, .sendAddrV2, .wtxidRelay]
    [.sendAddrV2, .wtxidRelay, .verack] rfl
  exact after.1 List.mem_cons_self

theorem run_handshakeExact_iff_greets :
    HandshakeExact ((run 4 "/observer/" 0).play HungUp.greets 0).1
      (.ok ⟨HungUp.version, false, false⟩) ↔
    (versionsOf (receivedOf ((run 4 "/observer/" 0).play HungUp.greets 0).1)).length ≤ 1 :=
  (run_handshakeExact_iff 4 "/observer/" 0).2 _ _ (runs_play HungUp.greets (run 4 "/observer/" 0) 0)

end P2PObserver
