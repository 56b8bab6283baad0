import Mathlib.Data.Prod.Lex
import P2PObserver.HeaderTree.Basic

/-! # Inserting headers

The insertion path of `headertree.rs`: validation, the refusal memory, checkpoint
pruning and the once-per-batch rebuild of the best chain.
-/

namespace P2PObserver

variable {H : Type} [LinearOrder H]

namespace HeaderTree

/-- `HeaderTree::new`. -/
def new (net : Network H) : HeaderTree H where
  headers := (∅ : HashMap H (HeaderEntry H)).insert net.genesisHash
    { header := net.genesis, height := 0, chainWork := net.work net.genesis }
  bestChain := [net.genesisHash]
  tip := net.genesisHash
  tipHeight := 0
  tipWork := net.work net.genesis
  dirty := false
  checkpoints := []
  reachedCheckpoint := none
  pruned := 0
  recovery := ∅
  rejected := ∅
  rejectedOrder := ∅
  rejectedSeq := 0

/-! ## Walks along the parent links -/

/-- The hashes met walking back from `hash`, stopping at genesis or at a hash the
    map lacks. The fuel bounds the source's `while let`. -/
def ancestors (headers : HashMap H (HeaderEntry H)) : Nat → H → List H
  | 0, _ => []
  | fuel + 1, hash =>
      match headers.lookup hash with
      | none => []
      | some entry =>
          if entry.height = 0 then [hash]
          else hash :: ancestors headers fuel entry.header.prevBlockhash

/-- Walk back `steps` blocks from `hash`. -/
def walkBack (t : HeaderTree H) (hash : H) : Nat → Option (HeaderEntry H)
  | 0 => t.headers.lookup hash
  | steps + 1 =>
      match t.headers.lookup hash with
      | none => none
      | some entry => walkBack t entry.header.prevBlockhash steps

/-- The walk of `rebuild_best_chain`, tip first; `none` is the panic of indexing
    a hash the map lacks (or a walk that outlives its fuel). -/
def chainFrom (headers : HashMap H (HeaderEntry H)) : Nat → H → Option (List H)
  | 0, _ => none
  | fuel + 1, hash =>
      match headers.lookup hash with
      | none => none
      | some entry =>
          if entry.height = 0 then some [hash]
          else (chainFrom headers fuel entry.header.prevBlockhash).map (hash :: ·)

/-- `rebuild_best_chain`. A walk that would panic leaves the tree alone; no
    reachable tree has one. -/
def rebuildBestChain (t : HeaderTree H) : HeaderTree H :=
  match chainFrom t.headers (t.tipHeight + 1) t.tip with
  | none => t
  | some chain => { t with bestChain := chain.reverse }

/-! ## Checkpoints -/

/-- One step of `max_by_key` on chain work; of equals the later one wins. -/
def heavier (best : Option (Sigma fun _ : H => HeaderEntry H))
    (e : Sigma fun _ : H => HeaderEntry H) : Option (Sigma fun _ : H => HeaderEntry H) :=
  match best with
  | none => some e
  | some b => if e.2.chainWork < b.2.chainWork then some b else some e

/-- `max_by_key` on chain work: the last of the heaviest entries. -/
def heaviest (entries : List (Sigma fun _ : H => HeaderEntry H)) :
    Option (Sigma fun _ : H => HeaderEntry H) :=
  entries.foldl heavier none

/-- Drop what was built on a dropped header, lowest first. -/
def dropOrphans (headers : HashMap H (HeaderEntry H)) (above : List (Nat ×ₗ H)) :
    HashMap H (HeaderEntry H) :=
  above.foldl (fun headers heightAndHash =>
    match headers.lookup (ofLex heightAndHash).2 with
    | none => headers
    | some entry =>
        if entry.header.prevBlockhash ∈ headers then headers
        else headers.erase (ofLex heightAndHash).2) headers

/-- The heights and hashes of what the map holds above `reached`, lowest first. -/
def heightsAbove (headers : HashMap H (HeaderEntry H)) (reached : Nat) : List (Nat ×ₗ H) :=
  ((headers.entries.filter fun e => reached < e.2.height).map
    fun e => toLex (e.2.height, e.1)).insertionSort (· ≤ ·)

/-- What `prune_below_checkpoint` leaves of the map. -/
def keepAncestors (headers : HashMap H (HeaderEntry H)) (checkpoint : Checkpoint H) :
    HashMap H (HeaderEntry H) :=
  let keep := ancestors headers (checkpoint.height + 1) checkpoint.hash
  let kept := HashMap.retain
    (fun hash entry => decide (checkpoint.height < entry.height) || decide (hash ∈ keep)) headers
  dropOrphans kept (heightsAbove kept checkpoint.height)

/-- Move the tip to the heaviest header left, if it was pruned. -/
def replaceTip (t : HeaderTree H) : HeaderTree H :=
  if t.tip ∈ t.headers then t
  else
    match heaviest t.headers.entries with
    | none => t
    | some e => { t with tip := e.1, tipHeight := e.2.height, tipWork := e.2.chainWork }

/-- `prune_below_checkpoint`, without the count it returns for the log. -/
def pruneBelowCheckpoint (t : HeaderTree H) : HeaderTree H :=
  match t.reachedCheckpoint with
  | none => t
  | some reached =>
      match t.checkpoints.find? (fun c => c.height == reached) with
      | none => t
      | some checkpoint =>
          let headers := keepAncestors t.headers checkpoint
          let pruned := HashMap.size t.headers - HashMap.size headers
          if 0 < pruned then
            ({ t with headers := headers, pruned := t.pruned + pruned, dirty := true }
              : HeaderTree H).replaceTip.rebuildBestChain
          else { t with headers := headers }

/-- Record that the block at `height` is a checkpoint, if it is one, and drop
    whatever the tree holds below it that is not on its chain. -/
def noteCheckpoint (t : HeaderTree H) (hash : H) (height : Nat) : HeaderTree H :=
  if t.checkpoints.any (fun c => c.height == height && c.hash == hash) &&
      !t.reachedCheckpoint.any (fun r => height ≤ r) then
    ({ t with reachedCheckpoint := some height } : HeaderTree H).pruneBelowCheckpoint
  else t

/-- `HeaderTree::with_checkpoints`. -/
def withCheckpoints (net : Network H) (checkpoints : List (Checkpoint H)) : HeaderTree H :=
  let tree := new net
  let tree := { tree with
    checkpoints := checkpoints.insertionSort fun c d => c.height ≤ d.height }
  tree.noteCheckpoint tree.tip 0

/-! ## The refusal memory -/

/-- Hand out the next sequence number. -/
def nextRejectedSeq (t : HeaderTree H) : Nat × HeaderTree H :=
  let seq := (t.rejectedSeq + 1) % 2 ^ 64
  (seq, { t with rejectedSeq := seq })

/-- Forget the oldest refusals until the memory is back in its bound. Every pass
    uses up one entry of the order, which is the fuel. -/
def forgetOldest : Nat → HeaderTree H → HeaderTree H
  | 0, t => t
  | fuel + 1, t =>
      if REJECTED_REMEMBERED < HashMap.size t.rejected then
        match t.rejectedOrder.keys.min? with
        | none => t
        | some oldest =>
            match t.rejectedOrder.lookup oldest with
            | none => t
            | some hash =>
                forgetOldest fuel { t with
                  rejectedOrder := t.rejectedOrder.erase oldest
                  rejected := t.rejected.erase hash }
      else t

/-- Remember that `hash` was refused, and why. A refusal already held keeps the
    place it has. -/
def rememberRejected (t : HeaderTree H) (hash : H) (reason : HeaderError) : HeaderTree H :=
  if hash ∈ t.rejected then t
  else
    let (seq, t) := t.nextRejectedSeq
    let t := { t with
      rejected := t.rejected.insert hash (reason, seq)
      rejectedOrder := t.rejectedOrder.insert seq hash }
    t.forgetOldest (HashMap.size t.rejectedOrder)

/-- Move a refusal to the back of the queue, because something has just been
    refused for inheriting it. -/
def touchRejected (t : HeaderTree H) (hash : H) : HeaderTree H :=
  let (seq, t) := t.nextRejectedSeq
  match t.rejected.lookup hash with
  | none => t
  | some (reason, previous) => { t with
      rejected := t.rejected.insert hash (reason, seq)
      rejectedOrder := (t.rejectedOrder.erase previous).insert seq hash }

/-- Why the tree rejected a header, if it did and still remembers. -/
def rejectionOf (t : HeaderTree H) (hash : H) : Option HeaderError :=
  (t.rejected.lookup hash).map (·.1)

/-- The height of a header the tree holds. -/
def heightOf (t : HeaderTree H) (hash : H) : Option Nat :=
  (t.headers.lookup hash).map (·.height)

/-- Whether this block has reached the tree at all, accepted or rejected. -/
def seen (t : HeaderTree H) (hash : H) : Bool :=
  decide (hash ∈ t.headers) || decide (hash ∈ t.rejected)

/-- Whether an unplaceable header's own target is so much easier than our tip's
    that its chain cannot be the one we are behind on. -/
def weakerThanOurTip (net : Network H) (t : HeaderTree H) (header : Header H) : Bool :=
  if net.allowMinDifficultyBlocks then false
  else
    match t.headers.lookup t.tip with
    | none => false
    | some tip =>
        decide (net.difficultyFloat (net.target header.bits) * WEAKER_CHAIN_FACTOR <
          net.difficultyFloat (net.target tip.header.bits))

/-! ## Validation and insertion -/

/-- The bits `validate_header` expects of a header at `height` under `parent`;
    `none` when the first block of the period cannot be found. -/
def expectedBitsAt (net : Network H) (t : HeaderTree H) (header : Header H) (height : Nat)
    (parent : HeaderEntry H) : Option Nat :=
  if height % PERIOD = 0 ∧ 0 < height then
    (t.walkBack header.prevBlockhash (PERIOD - 1)).map fun epochStart =>
      net.fromHeaderDifficultyAdjustment epochStart.header parent.header
  else some parent.header.bits

/-- `validate_header`. -/
def validateHeader (net : Network H) (t : HeaderTree H) (header : Header H) (height : Nat)
    (parent : HeaderEntry H) : Except HeaderError Unit :=
  if net.maxAttainableTarget < net.target header.bits then .error .targetTooEasy
  else if (t.checkpoints.find? (fun c => c.height == height)).any
      (fun c => c.hash != net.blockHash header) then .error .checkpointMismatch
  else if t.reachedCheckpoint.any (fun reached => height ≤ reached) then
    .error .forkBelowCheckpoint
  else
    match t.expectedBitsAt net header height parent with
    | none => .error .orphanHeader
    | some expected =>
        if net.validatePow header (net.target expected) then .ok () else .error .invalidPow

/-- Whether the tree holds the header's parent and would accept it. -/
def accepts (net : Network H) (t : HeaderTree H) (header : Header H) : Bool :=
  match t.headers.lookup header.prevBlockhash with
  | none => false
  | some parent => (t.validateHeader net header (parent.height + 1) parent).isOk

/-- Put an accepted header into the tree: the map entry, what it means for the
    checkpoints, and the tip if it is the heaviest now. -/
def accept (net : Network H) (t : HeaderTree H) (header : Header H) (parent : HeaderEntry H) :
    HeaderTree H :=
  let hash := net.blockHash header
  let height := parent.height + 1
  let chainWork := parent.chainWork + net.work header
  let t := { t with
    headers := t.headers.insert hash { header, height, chainWork }
    recovery := t.recovery.erase hash }
  let t := t.noteCheckpoint hash height
  let t := if t.tipWork < chainWork then
      { t with tip := hash, tipHeight := height, tipWork := chainWork }
    else t
  { t with dirty := true }

/-- What happens to a header whose parent the tree does not hold: it goes the way
    its parent went, or is read by its own target, or is an orphan. -/
def refuseUnplaced (net : Network H) (t : HeaderTree H) (header : Header H) :
    HeaderTree H × HeaderError :=
  let hash := net.blockHash header
  match t.rejectionOf header.prevBlockhash with
  | some reason =>
      -- The parent first, so that remembering the child cannot forget it.
      ((t.touchRejected header.prevBlockhash).rememberRejected hash reason, reason)
  | none =>
      if t.weakerThanOurTip net header then
        (t.rememberRejected hash .weakerChain, .weakerChain)
      else (t, .orphanHeader)

/-- `insert_inner`: `ok true` if new, `ok false` if already known. -/
def insertInner (net : Network H) (t : HeaderTree H) (header : Header H) :
    HeaderTree H × Except HeaderError Bool :=
  let hash := net.blockHash header
  if hash ∈ t.headers then (t, .ok false)
  else
    match t.headers.lookup header.prevBlockhash with
    | none =>
        let (t, reason) := t.refuseUnplaced net header
        (t, .error reason)
    | some parent =>
        match t.validateHeader net header (parent.height + 1) parent with
        | .error reason => (t.rememberRejected hash reason, .error reason)
        | .ok () => (t.accept net header parent, .ok true)

/-- The loop of `insert_batch`, carrying on past refusals: the tree, how many
    headers were new and the first refusal. -/
def insertEach (net : Network H) (t : HeaderTree H) :
    List (Header H) → HeaderTree H × Nat × Option HeaderError
  | [] => (t, 0, none)
  | header :: rest =>
      let (t, result) := t.insertInner net header
      let (t, accepted, err) := t.insertEach net rest
      match result with
      | .ok true => (t, accepted + 1, err)
      | .ok false => (t, accepted, err)
      | .error reason => (t, accepted, some reason)

/-- `insert_batch`: how many headers were accepted, and the first refusal. -/
def insertBatch (net : Network H) (t : HeaderTree H) (headers : List (Header H)) :
    HeaderTree H × Nat × Option HeaderError :=
  let (inserted, accepted, err) := t.insertEach net headers
  (if inserted.tip = t.tip then inserted else inserted.rebuildBestChain, accepted, err)

/-- The tree after `with_checkpoints` and a sequence of `insert_batch` calls. -/
def run (net : Network H) (checkpoints : List (Checkpoint H)) (batches : List (List (Header H))) :
    HeaderTree H :=
  batches.foldl (fun t headers => (t.insertBatch net headers).1) (withCheckpoints net checkpoints)

theorem run_append (net : Network H) (checkpoints : List (Checkpoint H))
    (batches : List (List (Header H))) (headers : List (Header H)) :
    run net checkpoints (batches ++ [headers]) =
      ((run net checkpoints batches).insertBatch net headers).1 := by
  simp only [run, List.foldl_append, List.foldl_cons, List.foldl_nil]

theorem insertEach_nil_tree (net : Network H) (t : HeaderTree H) : (t.insertEach net []).1 = t :=
  rfl

theorem insertEach_cons_tree (net : Network H) (t : HeaderTree H) (header : Header H)
    (rest : List (Header H)) :
    (t.insertEach net (header :: rest)).1 =
      ((t.insertInner net header).1.insertEach net rest).1 := by
  simp only [insertEach]
  split <;> rfl

theorem insertEach_append_tree (net : Network H) (t : HeaderTree H)
    (headers more : List (Header H)) :
    (t.insertEach net (headers ++ more)).1 =
      ((t.insertEach net headers).1.insertEach net more).1 := by
  induction headers generalizing t with
  | nil => rfl
  | cons header rest ih => rw [List.cons_append, insertEach_cons_tree, insertEach_cons_tree, ih]

/-- Beyond its loop, `insert_batch` touches nothing but the best chain. -/
theorem insertBatch_eq (net : Network H) (t : HeaderTree H) (headers : List (Header H)) :
    ∃ bestChain, (t.insertBatch net headers).1 =
      { (t.insertEach net headers).1 with bestChain } := by
  simp only [insertBatch]
  split
  · exact ⟨_, rfl⟩
  · simp only [rebuildBestChain]
    split
    · exact ⟨_, rfl⟩
    · exact ⟨_, rfl⟩

theorem run_singleton (net : Network H) (checkpoints : List (Checkpoint H))
    (headers : List (Header H)) : run net checkpoints [headers] =
      ((withCheckpoints net checkpoints).insertBatch net headers).1 :=
  rfl

theorem insertBatch_rejectionOf (net : Network H) (t : HeaderTree H) (headers : List (Header H))
    (hash : H) : (t.insertBatch net headers).1.rejectionOf hash =
      (t.insertEach net headers).1.rejectionOf hash := by
  obtain ⟨bestChain, eq⟩ := insertBatch_eq net t headers
  rw [eq]
  rfl

theorem insertBatch_heightOf (net : Network H) (t : HeaderTree H) (headers : List (Header H))
    (hash : H) : (t.insertBatch net headers).1.heightOf hash =
      (t.insertEach net headers).1.heightOf hash := by
  obtain ⟨bestChain, eq⟩ := insertBatch_eq net t headers
  rw [eq]
  rfl

/-! ## Invariants of a run -/

/-- Every header of a batch with the tree it was offered to. -/
def offersEach (net : Network H) (t : HeaderTree H) :
    List (Header H) → List (HeaderTree H × Header H)
  | [] => []
  | header :: rest => (t, header) :: offersEach net (t.insertInner net header).1 rest

/-- Every header of a run with the tree it was offered to, from a tree on. -/
def offersFrom (net : Network H) (t : HeaderTree H) :
    List (List (Header H)) → List (HeaderTree H × Header H)
  | [] => []
  | headers :: rest => t.offersEach net headers ++ offersFrom net (t.insertBatch net headers).1 rest

def offers (net : Network H) (checkpoints : List (Checkpoint H))
    (batches : List (List (Header H))) : List (HeaderTree H × Header H) :=
  (withCheckpoints net checkpoints).offersFrom net batches

theorem offersEach_snd (net : Network H) (t : HeaderTree H) (headers : List (Header H)) :
    (t.offersEach net headers).map Prod.snd = headers := by
  induction headers generalizing t with
  | nil => rfl
  | cons header rest ih => simp only [offersEach, List.map_cons, ih]

theorem offersFrom_snd (net : Network H) (t : HeaderTree H) (batches : List (List (Header H))) :
    (t.offersFrom net batches).map Prod.snd = batches.flatten := by
  induction batches generalizing t with
  | nil => rfl
  | cons headers rest ih =>
      simp only [offersFrom, List.map_append, offersEach_snd, ih, List.flatten_cons]

/-- What one insertion preserves, the loop of `insert_batch` preserves. `P` may
    speak of what has been offered so far, and to which trees. -/
theorem insertEach_induct {net : Network H}
    {P : HeaderTree H → List (HeaderTree H × Header H) → Prop}
    (step : ∀ t offered header, P t offered →
      P (t.insertInner net header).1 (offered ++ [(t, header)]))
    {t : HeaderTree H} (offered : List (HeaderTree H × Header H)) (begin : P t offered)
    (headers : List (Header H)) :
    P (t.insertEach net headers).1 (offered ++ t.offersEach net headers) := by
  induction headers generalizing t offered with
  | nil =>
      rw [offersEach, List.append_nil]
      exact begin
  | cons header rest ih =>
      have done := ih (offered ++ [(t, header)]) (step t offered header begin)
      rw [List.append_assoc] at done
      rw [insertEach_cons_tree]
      exact done

/-- What one insertion preserves, and rebuilding the best chain does not disturb,
    holds of every tree a run reaches. -/
theorem run_induct (net : Network H) (checkpoints : List (Checkpoint H))
    {P : HeaderTree H → List (HeaderTree H × Header H) → Prop}
    (start : P (withCheckpoints net checkpoints) [])
    (step : ∀ t offered header, P t offered →
      P (t.insertInner net header).1 (offered ++ [(t, header)]))
    (rebuild : ∀ t offered bestChain, P t offered → P { t with bestChain } offered)
    (batches : List (List (Header H))) :
    P (run net checkpoints batches) (offers net checkpoints batches) := by
  have batch : ∀ t offered headers, P t offered →
      P (t.insertBatch net headers).1 (offered ++ t.offersEach net headers) := by
    intro t offered headers begin
    obtain ⟨bestChain, eq⟩ := insertBatch_eq net t headers
    rw [eq]
    exact rebuild _ _ bestChain (insertEach_induct step offered begin headers)
  have from_any : ∀ t offered, P t offered →
      P (batches.foldl (fun t headers => (t.insertBatch net headers).1) t)
        (offered ++ t.offersFrom net batches) := by
    induction batches with
    | nil =>
        intro t offered begin
        rw [offersFrom, List.append_nil]
        exact begin
    | cons headers rest ih =>
        intro t offered begin
        have done := ih _ _ (batch t offered headers begin)
        rw [List.append_assoc] at done
        exact done
  exact from_any _ [] start

end HeaderTree

end P2PObserver
