import P2PObserver.Protocol.InSession

/-! # Messages that are about no block

Only three messages are about blocks. Whatever else a peer sends, and every tick of the ping
clock, leaves the header tree and what has been asked for alone.
-/

namespace P2PObserver

open Program

variable {H : Type}

namespace Connection

/-- Code that asks only what is about no block, and neither leaves its session nor reports the
    sync as complete. -/
def Asides {R : Type} (conn : Connection H) (p : Handler H R) (left : R → Connection H) : Prop :=
  wp (Monitor.only Answer Question.Aside) p
    (fun _ => fun
      | .ok r => conn.Same (left r)
      | .error e => e.1.isSyncComplete = false) ()

variable {R : Type} {conn : Connection H}

theorem asides_iff {p : Handler H R} {left : R → Connection H} : conn.Asides p left ↔
    Keeps identity Question.Aside (·.1.isSyncComplete = false) conn p left :=
  keeps_identity_iff _ (·.1.isSyncComplete = false)

theorem Plainly.asides {p : Handler H R} {left : R → Connection H}
    (plainly : conn.Plainly Question.Aside False p left) : conn.Asides p left :=
  asides_iff.mpr (Keeps.mono Settled.identity plainly (fun _ asked => asked.2)
    fun _ failed => eq_false_of_ne_true failed.1)

theorem Asides.of_same (conn' : Connection H) {p : Handler H R} {left : R → Connection H}
    (same : conn'.identity = conn.identity) (asides : conn'.Asides p left) : conn.Asides p left :=
  asides_iff.mpr (Keeps.of_same conn' same (asides_iff.mp asides))

theorem asides_pingTick : conn.Asides conn.pingTick id :=
  asides_iff.mpr (keeps_pingTick trivial trivial (fun _ => nofun) (fun _ _ => rfl) (fun _ => rfl)
    fun _ => rfl)

variable [DecidableEq H] (net : Network H) (codec : AddrCodec)

theorem asides_handleMessage {msg : NetworkMessage H} (aside : msg.aside = true) :
    conn.Asides (conn.handleMessage net codec msg) id := by
  refine Asides.of_same { conn with stats := conn.stats.recordMessage msg.command } rfl ?_
  cases ordinary : msg.ordinary with
  | true => exact (plainly_dispatch net codec ordinary aside).asides
  | false =>
      cases msg with
      | pong nonce =>
          exact asides_iff.mpr (keeps_handlePong nonce trivial trivial
            (fun _ _ ⟨_, measured⟩ _ is => nomatch measured.symm.trans is) fun _ => rfl)
      | getHeaders request =>
          exact asides_iff.mpr (keeps_handleGetHeaders request trivial (fun _ _ => trivial)
            (fun _ => nofun) (fun _ _ _ => rfl) identity_mayAnswerGetheaders fun _ => rfl)
      | _ => cases ordinary

end Connection

end P2PObserver
