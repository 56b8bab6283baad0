import P2PObserver.Protocol.Bootstrap
import P2PObserver.Protocol.V1Only

/-! # The events of one attempt

What an attempt publishes is told in order: nothing, a handshake and events of its session, and
a result. An attempt of the dialer ends with its result, and one of the bootstrap sync never
has one.
-/

namespace P2PObserver

open Program

variable {H : Type}

/-! ## Shapes -/

/-- The events that tell what has been reported. -/
def Reported.Shape : Reported → List (Event H) → Prop
  | .nothing, events => events = []
  | .handshake, events => ∃ info session, events = .handshake info :: session ∧
      ∀ e ∈ session, e.ofSession = true
  | .failed, events => ∃ result, events = [.connectionResult result] ∧
      ∀ session, result ≠ .disconnected session
  | .disconnected, events => ∃ info session ended,
      events = .handshake info :: session ++ [.connectionResult (.disconnected ended)] ∧
      ∀ e ∈ session, e.ofSession = true

/-- The events an attempt is to publish from its first to its last. -/
def AttemptShape (completed : Bool) (events : List (Event H)) : Prop :=
  if completed then Reported.Shape .disconnected events else Reported.Shape .failed events

theorem Reported.Shape.next {reported reported' : Reported} {events : List (Event H)}
    {e : Event H} (shape : reported.Shape events) (turn : reported.next e = some reported') :
    reported'.Shape (events ++ [e]) := by
  cases reported with
  | nothing =>
      rw [show events = [] from shape]
      cases e with
      | handshake info =>
          cases turn
          exact ⟨info, [], rfl, by simp⟩
      | connectionResult result =>
          cases result with
          | disconnected => cases turn
          | failed | ourFault =>
              cases turn
              exact ⟨_, rfl, nofun⟩
      | _ => cases turn
  | handshake =>
      obtain ⟨info, session, rfl, ofSession⟩ := shape
      cases e with
      | handshake => cases turn
      | connectionResult result =>
          cases result with
          | disconnected ended =>
              cases turn
              exact ⟨info, session, ended, rfl, ofSession⟩
          | failed | ourFault => cases turn
      | _ =>
          cases turn
          refine ⟨info, session ++ [_], rfl, ?_⟩
          simpa [or_imp, forall_and, Event.ofSession] using ofSession
  | failed | disconnected => cases turn

/-- No result is told before there is one. -/
theorem Reported.Shape.no_result {events : List (Event H)} {reported : Reported}
    (shape : reported.Shape events) (open_ : reported = .nothing ∨ reported = .handshake)
    (completed : Bool) : ¬AttemptShape completed events := by
  have without : ∀ result, .connectionResult result ∉ events := by
    rcases open_ with rfl | rfl
    · rw [show events = [] from shape]
      exact fun _ => List.not_mem_nil
    · obtain ⟨info, session, rfl, ofSession⟩ := shape
      intro result listed
      rcases List.mem_cons.mp listed with is | listed
      · cases is
      · cases ofSession _ listed
  intro whole
  cases completed with
  | true =>
      obtain ⟨info, session, ended, rfl, _⟩ := whole
      exact without (.disconnected ended) (by simp)
  | false =>
      obtain ⟨result, rfl, _⟩ := whole
      exact without result (List.mem_singleton.mpr rfl)

/-! ## Traces -/

/-- What a question hands to `emit::send`. -/
def Question.emits : Question H → Option (PeerEvent H)
  | .emit event => some event
  | _ => none

/-- What a trace hands to `emit::send`. -/
def emitted (trace : List (Exchange (Question H) Answer)) : List (PeerEvent H) :=
  trace.filterMap fun x => x.1.emits

/-- Whether a version handshake completed, on any transport. -/
def handshook (trace : List (Exchange (Question H) Answer)) : Bool :=
  (trace.foldl (fun progress x => progress.next x.1 x.2) Progress.start).completed

/-- The events of a trace are all under an id, and told as they should be. -/
def Publishes (id : UInt64) (shape : List (Event H) → Prop)
    (trace : List (Exchange (Question H) Answer)) : Prop :=
  (∀ event ∈ emitted trace, event.connectionId = id) ∧
    ∃ events, (emitted trace).map (·.event) = events.map some ∧ shape events

namespace Ledger

theorem next_silent (s : Ledger) {q : Question H} (silent : q.emits = none) (same : q ≠ .peerId)
    (a : Answer q) : (s.next q a).reported = s.reported ∧ (s.next q a).id = s.id := by
  cases q with
  | emit => cases silent
  | peerId => exact absurd rfl same
  | _ => exact ⟨rfl, rfl⟩

variable [SocketText] {cfg : ProtocolConfig} {scope : Option PeerAddr}

theorem after_progress (s : Ledger) (trace : List (Exchange (Question H) Answer)) :
    ((monitor cfg scope).after s trace).progress =
      trace.foldl (fun progress x => progress.next x.1 x.2) s.progress := by
  induction trace generalizing s with
  | nil => rfl
  | cons x rest ih => exact ih _

theorem publishes {addr : PeerAddr} {s : Ledger} {before : List (Event H)}
    (shape : s.reported.Shape before) {trace : List (Exchange (Question H) Answer)}
    (accepts : (monitor cfg (some addr)).Accepts s trace) :
    Publishes s.id (fun events => ((monitor cfg (some addr)).after s trace).reported.Shape
      (before ++ events)) trace := by
  induction trace generalizing s before with
  | nil =>
      refine ⟨fun _ listed => absurd listed List.not_mem_nil, [], rfl, ?_⟩
      dsimp only
      rw [List.append_nil]
      exact shape
  | cons x rest ih =>
      obtain ⟨ok, accepts⟩ := accepts
      change (monitor cfg (some addr)).Accepts (s.next x.1 x.2) rest at accepts
      show Publishes s.id (fun events => ((monitor cfg (some addr)).after (s.next x.1 x.2)
        rest).reported.Shape (before ++ events)) (x :: rest)
      cases silent : x.1.emits with
      | none =>
          have same : x.1 ≠ .peerId := by
            intro is
            rw [is] at ok
            cases ok
          obtain ⟨reported, id⟩ := s.next_silent silent same x.2
          rw [← reported] at shape
          obtain ⟨ids, events, told, reaches⟩ := ih shape accepts
          rw [id] at ids
          have unchanged : emitted (x :: rest) = emitted rest := List.filterMap_cons_none silent
          exact ⟨unchanged ▸ ids, events, unchanged ▸ told, reaches⟩
      | some event =>
          obtain ⟨q, a⟩ := x
          cases q with
          | emit event' =>
              cases silent
              obtain ⟨own, e, is, turn⟩ := ok
              obtain ⟨reported, turn⟩ := Option.isSome_iff_exists.mp turn
              have next : s.next (.emit event) a = { s with reported } := next_emit is turn a
              rw [next] at accepts ⊢
              obtain ⟨ids, events, told, reaches⟩ := ih (shape.next turn) accepts
              refine ⟨?_, e :: events, congrArg₂ List.cons is told, ?_⟩
              · intro event' listed
                rcases List.mem_cons.mp listed with rfl | listed
                · exact own
                · exact ids event' listed
              · dsimp only
                rw [List.append_cons]
                exact reaches
          | _ => cases silent

end Ledger

/-! ## Attempts -/

/-- Who starts an attempt. -/
inductive Starter where
  | manager
  | bootstrap
  deriving DecidableEq, Repr

section Attempts

variable [SocketText] [DecidableEq H] (net : Network H) (codec : AddrCodec) (cfg : ProtocolConfig)
  (fuel : Nat)

/-- The attempt of a dial; the bootstrap sync always detects the transport. -/
def Starter.attempt (dial : Dial) : Starter → Routine H Unit
  | .manager => P2PObserver.attempt net codec cfg fuel dial
  | .bootstrap => do
      let _ ← bootstrapAttempt net codec cfg fuel dial.addr
      return ()

/-- The attempt once its id is drawn. -/
def Starter.attemptAs (id : UInt64) (dial : Dial) : Starter → Routine H Unit
  | .manager => P2PObserver.attemptAs net codec cfg fuel id dial
  | .bootstrap => do
      let _ ← bootstrapAttemptAs net codec cfg fuel id dial.addr
      return ()

/-- What an attempt has told when it is over. -/
def Starter.reports (completed : Bool) : Starter → Reported
  | .manager => if completed then .disconnected else .failed
  | .bootstrap => if completed then .handshake else .nothing

theorem Starter.wp_attemptAs (starter : Starter) (id : UInt64) (dial : Dial) :
    wp (Ledger.monitor cfg (some dial.addr)) (starter.attemptAs net codec cfg fuel id dial)
      (fun s _ => s.reported = starter.reports s.progress.completed) (.start id) := by
  have fresh : (Ledger.start id).Fresh := ⟨rfl, rfl, rfl, rfl⟩
  have ours : ∀ a ∈ some dial.addr, a = dial.addr := fun _ is => (Option.some.inj is).symm
  cases starter with
  | manager =>
      apply wp_mono (P2PObserver.wp_attemptAs cfg net codec fuel dial ours fresh rfl)
      intro s end_ reached
      exact reached.2
  | bootstrap =>
      dsimp only [Starter.attemptAs]
      rw [bind_eq, wp_bind]
      apply wp_mono (wp_bootstrapAttemptAs cfg net codec fuel dial.addr ours fresh rfl)
      intro s end_ reached
      cases end_ with
      | ok connectedAt =>
          obtain ⟨completed, reported, _⟩ := reached
          dsimp only [andThen_ok, pure_eq, wp_done, reports]
          rw [completed]
          exact reported
      | error e =>
          obtain ⟨_, fresh⟩ := reached
          dsimp only [andThen_error, reports]
          rw [fresh.progress]
          exact fresh.reported

theorem Starter.attempt_eq (starter : Starter) (dial : Dial) :
    starter.attempt net codec cfg fuel dial =
      .ask .peerId fun id => starter.attemptAs net codec cfg fuel id dial := by
  cases starter <;> rfl

omit [SocketText] [DecidableEq H] in
/-- One trace has one list of events. -/
theorem Publishes.unique {id : UInt64} {shape shape' : List (Event H) → Prop}
    {trace : List (Exchange (Question H) Answer)} (first : Publishes id shape trace)
    (second : Publishes id shape' trace) : ∃ events, shape events ∧ shape' events := by
  obtain ⟨_, events, told, is⟩ := first
  obtain ⟨_, events', told', is'⟩ := second
  have same : events = events' :=
    List.map_injective_iff.mpr (Option.some_injective _) (told.symm.trans told')
  exact ⟨events, is, same ▸ is'⟩

/-- The events of an attempt, finished or not, are told in order under the id it drew. When it
    is finished they are the whole of what an attempt is to publish exactly if the dialer
    started it. -/
theorem run_attempt_shape_iff (starter : Starter) (dial : Dial) {id : UInt64}
    {trace : List (Exchange (Question H) Answer)} {end_ : Option (Except AnyError Unit)}
    (run : Runs (starter.attempt net codec cfg fuel dial) (⟨.peerId, id⟩ :: trace) end_) :
    Publishes id (fun events => ∃ reported : Reported, reported.Shape events) trace ∧
      (end_.isSome = true →
        (Publishes id (AttemptShape (handshook trace)) trace ↔ starter = .manager)) := by
  rw [starter.attempt_eq] at run
  cases run with
  | ask run =>
      obtain ⟨accepts, ended⟩ := run.sound (starter.wp_attemptAs net codec cfg fuel id dial)
      have nothing : Reported.Shape (H := H) (Ledger.start id).reported [] := rfl
      have told := Ledger.publishes nothing accepts
      simp only [List.nil_append] at told
      refine ⟨⟨told.1, told.2.imp fun events is => ⟨is.1, _, is.2⟩⟩, fun finished => ?_⟩
      obtain ⟨e, is⟩ := Option.isSome_iff_exists.mp finished
      have reports := ended e is
      rw [Ledger.after_progress] at reports
      change _ = starter.reports (handshook trace) at reports
      rw [reports] at told
      cases starter with
      | manager =>
          refine ⟨fun _ => rfl, fun _ => ⟨told.1, told.2.imp fun events is => ⟨is.1, ?_⟩⟩⟩
          have shape := is.2
          unfold AttemptShape
          cases completed : handshook trace with
          | true => simpa [Starter.reports, completed] using shape
          | false => simpa [Starter.reports, completed] using shape
      | bootstrap =>
          constructor
          · intro whole
            obtain ⟨events, shape, complete⟩ := told.unique whole
            refine absurd complete (shape.no_result ?_ _)
            cases handshook trace with
            | true => exact .inr rfl
            | false => exact .inl rfl
          · intro never
            cases never

end Attempts

/-! ## The sync's attempts -/

namespace HungUp

/-- A refused attempt of the bootstrap sync, from its id on. -/
def refusedSync : List (Exchange (Question (List Nat)) Answer) :=
  [⟨.tcpConnect sockaddr, .finished (some .connectionRefused)⟩,
    ⟨.lifecycle (.ended addr (.failed .connectionRefused)), ()⟩]

theorem runSync (text : SocketText) (net : Network (List Nat)) :
    Runs (Starter.bootstrap.attempt net codec cfg 0 ⟨addr, .unknown⟩)
      (⟨.peerId, (7 : UInt64)⟩ :: refusedSync)
      (some (.error (.ofIo .connectionRefused "TCP connect"))) :=
  .ask (.ask (.ask (.fail _)))

end HungUp

/-- An attempt of the bootstrap sync, here a refused one, is never reported. -/
theorem bootstrap_unreported : ¬ ∀ (_ : SocketText) (net : Network (List Nat)) (id : UInt64)
    (trace : List (Exchange (Question (List Nat)) Answer)) (e : Except AnyError Unit),
    Runs (Starter.bootstrap.attempt net HungUp.codec HungUp.cfg 0 ⟨HungUp.addr, .unknown⟩)
      (⟨.peerId, id⟩ :: trace) (some e) →
    Publishes id (AttemptShape (handshook trace)) trace := by
  intro claim
  obtain ⟨_, events, told, shape⟩ := claim plainText (Params.network Params.mainnet) 7
    HungUp.refusedSync _ (HungUp.runSync plainText _)
  obtain ⟨result, rfl, _⟩ := shape
  cases told

namespace HungUp

/-- The peer closes the v2 transport, speaks v1, tells two fee filters and closes. -/
def detected : Nat → (q : Question (List Nat)) → Answer q
  | _, .bip324Handshake => .finished (some eof)
  | n, q =>
      answer (fun n => if n < 15 then .version version else .verack)
        (fun n => if n < 36 then .message (.feeFilter 1000) else .failed eof) n q

/-- The attempt, from its id on. -/
def detecting (starter : Starter) : List (Exchange (Question (List Nat)) Answer) :=
  ((@Starter.attempt _ plainText _ Params.mainnet.network codec cfg 5 ⟨addr, .unknown⟩
    starter).play detected 0).1.tail

/-- How it ends. -/
def detectingEnd (starter : Starter) : Option (Except AnyError Unit) :=
  ((@Starter.attempt _ plainText _ Params.mainnet.network codec cfg 5 ⟨addr, .unknown⟩
    starter).play detected 0).2

theorem runDetecting (starter : Starter) :
    Runs (@Starter.attempt _ plainText _ Params.mainnet.network codec cfg 5 ⟨addr, .unknown⟩ starter)
      (⟨.peerId, (7 : UInt64)⟩ :: detecting starter) (detectingEnd starter) := by
  cases starter <;> exact runs_play detected _ 0

end HungUp

/-- An attempt with a session: told whole by the dialer, and without its end by the sync. -/
theorem run_attempt_shape_iff_session :
    Publishes 7 (AttemptShape true) (HungUp.detecting .manager) ∧
      ¬Publishes 7 (AttemptShape true) (HungUp.detecting .bootstrap) := by
  have whole (starter : Starter) (finished : (HungUp.detectingEnd starter).isSome = true) :=
    (@run_attempt_shape_iff _ plainText _ Params.mainnet.network HungUp.codec HungUp.cfg 5 starter
      ⟨HungUp.addr, .unknown⟩ _ _ _ (HungUp.runDetecting starter)).2 finished
  exact ⟨(whole .manager rfl).mpr rfl, fun is => nomatch (whole .bootstrap rfl).mp is⟩

end P2PObserver
