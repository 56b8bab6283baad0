import P2PObserver.HeaderTree.Locator
import P2PObserver.Lib.Service
import P2PObserver.Protocol.Session

/-! # The shared header tree

The one tree of the process, behind its lock: each question about it is answered from the tree
as it is then, and only an insertion and the recovery throttle change it.
-/

namespace P2PObserver

variable {H : Type} [LinearOrder H]

/-- What the tree answers and becomes. The throttle reads the clock under the lock. -/
def HeaderTree.serves (net : Network H) : Service (Question H) Answer (HeaderTree H)
  | t, .tip, a, t' => a = (t.tip, t.tipHeight) ∧ t' = t
  | t, .seen hash, a, t' => a = t.seen hash ∧ t' = t
  | t, .seenEach hashes, a, t' => a = hashes.map t.seen ∧ t' = t
  | t, .insertBatch headers, a, t' => (t', a) = t.insertBatch net headers
  | t, .placement hash, a, t' => a = (t.heightOf hash, t.rejectionOf hash) ∧ t' = t
  | t, .rejectionOf hash, a, t' => a = t.rejectionOf hash ∧ t' = t
  | t, .recoveryDue missing proven, a, t' => ∃ now, (a, t') = t.recoveryDue missing proven now
  | t, .buildLocator, a, t' => a = t.buildLocator ∧ t' = t
  | t, .getHeadersFromLocator locator stop, a, t' =>
      a = t.getHeadersFromLocator net locator stop ∧ t' = t
  | t, _, _, t' => t' = t

end P2PObserver
