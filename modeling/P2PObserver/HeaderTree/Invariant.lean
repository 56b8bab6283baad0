import P2PObserver.HeaderTree.Accept
import P2PObserver.HeaderTree.Networks

/-! # The invariant of every grown tree

The rebuild of the best chain is skipped when a batch leaves the tip where it was.
What makes that safe is that a tip, once left, is never come back to: the branch it
ended was either kept or pruned below a checkpoint, and below a reached checkpoint
nothing is accepted again.
-/

namespace P2PObserver

variable {H : Type} [LinearOrder H] {net : Network H} {checkpoints : List (Checkpoint H)}

/-- A tree that represents `held` and whose best chain is its tip's branch. -/
structure Synced (net : Network H) (t : HeaderTree H) (held : Set (List (Header H))) : Prop
    extends Represents net t held where
  bestChain : ∀ b, AtTip net t b → b ∈ held → BestChainIs net t b

/-! ## The first tree -/

theorem mapOf_new (net : Network H) (checkpoints : List (Checkpoint H)) :
    MapOf net checkpoints (HeaderTree.new net).headers {[net.genesis]} where
  admissible := by
    intro b hb
    rw [Set.mem_singleton_iff.mp hb]
    exact .root
  tail_mem := by
    intro n rest hb more
    exact absurd (List.cons.inj hb).2 more
  root_mem := rfl
  lookup_iff := by
    intro x e
    rw [HeaderTree.new, HashMap.lookup_insert_iff]
    constructor
    · intro found
      cases found with
      | inl found =>
          obtain ⟨key, entry⟩ := found
          refine ⟨net.genesis, [], rfl, key.symm, ?_⟩
          rw [entry]
          simp [entryOf, Network.chainWork]
      | inr found => simp at found
    · intro found
      obtain ⟨n, rest, hb, key, entry⟩ := found
      obtain ⟨rfl, rfl⟩ := List.cons.inj (Set.mem_singleton_iff.mp hb)
      left
      refine ⟨key.symm, ?_⟩
      rw [entry]
      simp [entryOf, Network.chainWork]

/-- The checkpoints of a tree, which keeps them sorted. -/
def sortedCheckpoints (checkpoints : List (Checkpoint H)) : List (Checkpoint H) :=
  checkpoints.insertionSort fun c d => c.height ≤ d.height

omit [LinearOrder H] in
theorem mem_sortedCheckpoints {c : Checkpoint H} :
    c ∈ sortedCheckpoints checkpoints ↔ c ∈ checkpoints :=
  (List.perm_insertionSort _ checkpoints).mem_iff

theorem run_checkpoints (net : Network H) (checkpoints : List (Checkpoint H))
    (batches : List (List (Header H))) :
    (HeaderTree.run net checkpoints batches).checkpoints = sortedCheckpoints checkpoints := by
  refine HeaderTree.run_induct net checkpoints
    (P := fun t _ => t.checkpoints = sortedCheckpoints checkpoints) ?_ ?_ ?_ batches
  · exact (HeaderTree.noteCheckpoint_sameRefusals _ _ _).checkpoints
  · intro t _ header kept
    exact (HeaderTree.insertInner_checkpoints net t header).trans kept
  · intro t _ bestChain kept
    exact kept

/-- The first tree holds genesis and nothing else. -/
theorem withCheckpoints_synced (net : Network H) (checkpoints : List (Checkpoint H))
    (distinct : (checkpoints.map Checkpoint.height).Nodup) :
    Synced net (HeaderTree.withCheckpoints net checkpoints) {[net.genesis]} := by
  set tree : HeaderTree H := { HeaderTree.new net with
    checkpoints := checkpoints.insertionSort fun c d => c.height ≤ d.height } with tree_def
  have made : HeaderTree.withCheckpoints net checkpoints =
      tree.noteCheckpoint (net.blockHash net.genesis) ([] : List (Header H)).length := rfl
  have sorted : (tree.checkpoints.map Checkpoint.height).Nodup := by
    refine (List.Perm.nodup_iff ?_).mpr distinct
    exact (List.perm_insertionSort _ checkpoints).map _
  have M : MapOf net tree.checkpoints tree.headers {[net.genesis]} :=
    mapOf_new net tree.checkpoints
  have tip : AtTip net tree [net.genesis] := by
    refine ⟨net.genesis, [], rfl, rfl, rfl, ?_⟩
    simp [tree_def, HeaderTree.new, Network.chainWork]
  have chain : BestChainIs net tree [net.genesis] := rfl
  rw [made]
  by_cases isCheckpoint : IsCheckpoint net tree.checkpoints [net.genesis]
  · have noted := HeaderTree.noteCheckpoint_of_checkpoint (t := tree) isCheckpoint
      (by simp [tree_def, HeaderTree.new])
    obtain ⟨pruned, reached, tip'⟩ := MapOf.pruneBelowCheckpoint
      (t := { tree with reachedCheckpoint := some ([] : List (Header H)).length })
      M sorted rfl isCheckpoint rfl (by simp) rfl tip
    have all : {s | s ∈ ({[net.genesis]} : Set (List (Header H))) ∧
        Lineage.Comparable s [net.genesis]} = {[net.genesis]} := by
      ext s
      simp only [Set.mem_ofPred_eq, Set.mem_singleton_iff, and_iff_left_iff_imp]
      intro eq
      rw [eq]
      exact .refl _
    have same := HeaderTree.noteCheckpoint_sameRefusals tree (net.blockHash net.genesis)
      ([] : List (Header H)).length
    rw [all] at pruned
    rw [← noted] at pruned reached tip'
    have tip'' : AtTip net (tree.noteCheckpoint (net.blockHash net.genesis)
          ([] : List (Header H)).length) [net.genesis] ∧
        BestChainIs net (tree.noteCheckpoint (net.blockHash net.genesis)
          ([] : List (Header H)).length) [net.genesis] := by
      cases tip' with
      | inl tip' => exact tip'
      | inr tip' => exact ⟨tip'.1, tip'.2.2 chain⟩
    exact
      { toMapOf := pruned
        heights_nodup := by rw [same.checkpoints]; exact sorted
        unreached := by
          intro unreached
          rw [reached] at unreached
          cases unreached
        reached := by
          intro r eq
          rw [reached] at eq
          cases eq
          rw [same.checkpoints]
          exact ⟨_, rfl, isCheckpoint, rfl, by simp [Lineage.Comparable], by simp⟩
        tip := ⟨_, rfl, tip''.1⟩
        heaviest := by
          obtain ⟨-, -, -, -, -, work⟩ := tip''.1
          intro b hb
          rw [Set.mem_singleton_iff.mp hb, work]
        bestChain := by
          intro b _ hb
          rw [Set.mem_singleton_iff.mp hb]
          exact tip''.2 }
  · rw [HeaderTree.noteCheckpoint_of_not_checkpoint (t := tree) isCheckpoint]
    exact
      { toMapOf := M
        heights_nodup := sorted
        unreached := by
          intro _ b hb
          rw [Set.mem_singleton_iff.mp hb]
          exact isCheckpoint
        reached := by simp [tree_def, HeaderTree.new]
        tip := ⟨_, rfl, tip⟩
        heaviest := by
          obtain ⟨-, -, -, -, -, work⟩ := tip
          intro b hb
          rw [Set.mem_singleton_iff.mp hb, work]
        bestChain := by
          intro b _ hb
          rw [Set.mem_singleton_iff.mp hb]
          exact chain }

/-! ## One batch -/

/-- What holds in the middle of a batch that began with the tip on `old`: the best
    chain is `old`'s as long as the tip is, and `old` cannot come back once it is gone. -/
structure InBatch (net : Network H) (old : List (Header H)) (t : HeaderTree H)
    (held : Set (List (Header H))) : Prop extends Represents net t held where
  branch : net.IsBranch old
  gone : old ∈ held ∨ ∃ r, t.reachedCheckpoint = some r ∧ old.length ≤ r + 1
  bestChain : AtTip net t old → BestChainIs net t old

namespace InBatch

variable {old : List (Header H)} {t : HeaderTree H} {held : Set (List (Header H))}

theorem of_sameChain {t' : HeaderTree H} (B : InBatch net old t held)
    (same : HeaderTree.SameChain t t') : InBatch net old t' held where
  toRepresents := B.toRepresents.of_sameChain same
  branch := B.branch
  gone := by
    rw [same.reachedCheckpoint]
    exact B.gone
  bestChain := by
    simp only [AtTip, BestChainIs, same.tip, same.tipHeight, same.tipWork, same.bestChain]
    exact B.bestChain

/-- A header that may be placed never makes `old` again. -/
theorem ne_old {header p : Header H} {rest : List (Header H)} (B : InBatch net old t held)
    (h : Placeable net t held header p rest) : header :: p :: rest ≠ old := by
  intro eq
  cases B.gone with
  | inl kept => exact h.fresh _ (eq ▸ kept)
  | inr below =>
      obtain ⟨r, reached, le⟩ := below
      have above := h.above r reached
      rw [← eq] at le
      simp only [List.length_cons] at above le
      omega

theorem accept {header p : Header H} {rest : List (Header H)} (B : InBatch net old t held)
    (h : Placeable net t held header p rest) :
    InBatch net old (t.accept net header (entryOf net p rest))
      (growWith net t.checkpoints held (header :: p :: rest)) where
  toRepresents := B.toRepresents.accept h
  branch := B.branch
  gone := by
    by_cases isCheckpoint : IsCheckpoint net t.checkpoints (header :: p :: rest)
    · have reached := (B.toRepresents.accept_reached h).1 isCheckpoint
      cases B.gone with
      | inl kept =>
          have le := h.checkpoint_tops B.toRepresents isCheckpoint old kept
          exact .inr ⟨_, reached, le⟩
      | inr below =>
          obtain ⟨r, before, le⟩ := below
          have above := h.above r before
          exact .inr ⟨_, reached, by omega⟩
    · rw [(B.toRepresents.accept_reached h).2 isCheckpoint]
      cases B.gone with
      | inl kept => exact .inl ⟨.inl kept, fun reached => absurd reached isCheckpoint⟩
      | inr below => exact .inr below
  bestChain := by
    intro there
    cases B.toRepresents.accept_tip h with
    | inl moved =>
        -- The tip is the new header, which cannot end `old`.
        obtain ⟨n, below, rfl, key, -⟩ := there
        have same := (h.admissible B.toRepresents).isBranch.unique_of_key B.branch
          (moved.symm.trans key.symm)
        exact absurd same (B.ne_old h)
    | inr stayed =>
        obtain ⟨tip, chain⟩ := stayed
        obtain ⟨b, hb, at_tip⟩ := B.tip
        have same := at_tip.unique there (B.toMapOf.branch hb) B.branch tip.symm
        rw [same] at at_tip
        rw [BestChainIs, chain]
        exact B.bestChain at_tip

theorem insertInner (B : InBatch net old t held) (header : Header H) :
    ∃ held', InBatch net old (t.insertInner net header).1 held' := by
  have outcome := B.toRepresents.insertInner_outcome header
  generalize (t.insertInner net header).1 = t', (t.insertInner net header).2 = result at outcome ⊢
  cases outcome with
  | known => exact ⟨held, B⟩
  | unplaced => exact ⟨held, B.of_sameChain (HeaderTree.refuseUnplaced_sameChain net t header)⟩
  | refused => exact ⟨held, B.of_sameChain (HeaderTree.rememberRejected_sameChain t _ _)⟩
  | accepted h => exact ⟨_, B.accept h⟩

theorem insertEach (B : InBatch net old t held) (headers : List (Header H)) :
    ∃ held', InBatch net old (t.insertEach net headers).1 held' := by
  refine HeaderTree.insertEach_induct (P := fun t _ => ∃ held, InBatch net old t held) ?_
    [] ⟨held, B⟩ headers
  intro t _ header reached
  obtain ⟨held, B⟩ := reached
  exact B.insertInner header

end InBatch

namespace Synced

variable {t : HeaderTree H} {held : Set (List (Header H))}

theorem insertBatch (S : Synced net t held) (headers : List (Header H)) :
    ∃ held', Synced net (t.insertBatch net headers).1 held' := by
  obtain ⟨old, old_mem, at_tip⟩ := S.tip
  have begin : InBatch net old t held :=
    { toRepresents := S.toRepresents
      branch := S.toMapOf.branch old_mem
      gone := .inl old_mem
      bestChain := fun _ => S.bestChain old at_tip old_mem }
  obtain ⟨held', B⟩ := begin.insertEach headers
  obtain ⟨b, hb, tip⟩ := B.tip
  refine ⟨held', ?_⟩
  simp only [HeaderTree.insertBatch]
  by_cases same : (t.insertEach net headers).1.tip = t.tip
  · rw [if_pos same]
    refine ⟨B.toRepresents, ?_⟩
    intro c tip' hc
    have eq := tip'.unique at_tip (B.toMapOf.branch hc) (S.toMapOf.branch old_mem) same
    rw [eq] at tip' ⊢
    exact B.bestChain tip'
  · rw [if_neg same, HeaderTree.rebuildBestChain_eq B.toMapOf hb tip]
    refine ⟨⟨B.toMapOf, B.heights_nodup, B.unreached, B.reached, B.tip, B.heaviest⟩, ?_⟩
    intro c tip' hc
    have eq := tip'.unique tip (B.toMapOf.branch hc) (B.toMapOf.branch hb) rfl
    rw [eq]
    rfl

end Synced

/-- Every tree a run reaches represents some branches, its best chain up to date. -/
theorem run_synced (net : Network H) (checkpoints : List (Checkpoint H))
    (distinct : (checkpoints.map Checkpoint.height).Nodup) (batches : List (List (Header H))) :
    ∃ held, Synced net (HeaderTree.run net checkpoints batches) held := by
  induction batches using List.reverseRecOn with
  | nil => exact ⟨_, withCheckpoints_synced net checkpoints distinct⟩
  | append_singleton batches headers ih =>
      obtain ⟨held, S⟩ := ih
      rw [HeaderTree.run_append]
      exact S.insertBatch headers

/-- Nothing is held but genesis and what was offered. -/
theorem run_offered (distinct : (checkpoints.map Checkpoint.height).Nodup)
    (batches : List (List (Header H))) {hash : H} {entry : HeaderEntry H}
    (found : (HeaderTree.run net checkpoints batches).headers.lookup hash = some entry) :
    entry.header = net.genesis ∨ entry.header ∈ batches.flatten := by
  have all := HeaderTree.run_induct net checkpoints
    (P := fun t offered => ∃ held, Represents net t held ∧ ∀ n rest, n :: rest ∈ held →
      n = net.genesis ∨ n ∈ offered.map Prod.snd) ?_ ?_ ?_ batches
  · obtain ⟨held, R, from_offers⟩ := all
    rw [HeaderTree.offers, HeaderTree.offersFrom_snd] at from_offers
    obtain ⟨n, rest, member, -, rfl⟩ := R.lookup_iff.mp found
    exact from_offers n rest member
  · refine ⟨_, (withCheckpoints_synced net checkpoints distinct).toRepresents, ?_⟩
    intro n rest member
    exact .inl (List.cons.inj (Set.mem_singleton_iff.mp member)).1
  · intro t offered header before
    obtain ⟨held, R, from_offers⟩ := before
    have wider : ∀ n rest, n :: rest ∈ held →
        n = net.genesis ∨ n ∈ (offered ++ [(t, header)]).map Prod.snd := by
      intro n rest member
      cases from_offers n rest member with
      | inl root => exact .inl root
      | inr early => exact .inr (by rw [List.map_append]; exact List.mem_append_left _ early)
    have outcome := R.insertInner_outcome header
    generalize (t.insertInner net header).1 = t', (t.insertInner net header).2 = result
      at outcome ⊢
    cases outcome with
    | known => exact ⟨held, R, wider⟩
    | unplaced =>
        exact ⟨held, R.of_sameChain (HeaderTree.refuseUnplaced_sameChain net t header), wider⟩
    | refused =>
        exact ⟨held, R.of_sameChain (HeaderTree.rememberRejected_sameChain t _ _), wider⟩
    | accepted ok =>
        refine ⟨_, R.accept ok, ?_⟩
        intro n rest member
        cases member.1 with
        | inl old => exact wider n rest old
        | inr new =>
            obtain ⟨rfl, -⟩ := List.cons.inj new
            exact .inr (by simp)
  · intro t offered bestChain before
    obtain ⟨held, R, from_offers⟩ := before
    exact ⟨held, ⟨R.toMapOf, R.heights_nodup, R.unreached, R.reached, R.tip, R.heaviest⟩,
      from_offers⟩

/-! ## The invariant in the tree's own terms -/

/-- What every tree keeps between two calls. -/
structure Invariant (net : Network H) (t : HeaderTree H) : Prop where
  /-- Entries are filed under their own hash. -/
  keyed : ∀ hash entry, t.headers.lookup hash = some entry → net.blockHash entry.header = hash
  /-- Only genesis is without a parent. -/
  bottom : ∀ hash entry, t.headers.lookup hash = some entry → entry.height = 0 →
    entry.header = net.genesis
  parent : ∀ hash entry, t.headers.lookup hash = some entry → 0 < entry.height →
    ∃ parent, t.headers.lookup entry.header.prevBlockhash = some parent ∧
      parent.height + 1 = entry.height ∧
      parent.chainWork + net.work entry.header = entry.chainWork
  tip : ∃ entry, t.headers.lookup t.tip = some entry ∧ t.tipHeight = entry.height ∧
    t.tipWork = entry.chainWork
  heaviest : ∀ hash entry, t.headers.lookup hash = some entry → entry.chainWork ≤ t.tipWork
  chain_length : t.bestChain.length = t.tipHeight + 1
  chain_first : t.bestChain.head? = some net.genesisHash
  chain_last : t.bestChain.getLast? = some t.tip
  chain_height : ∀ height hash, t.bestChain[height]? = some hash → t.heightOf hash = some height
  chain_link : ∀ height hash next, t.bestChain[height]? = some hash →
    t.bestChain[height + 1]? = some next →
    ∃ entry, t.headers.lookup next = some entry ∧ entry.header.prevBlockhash = hash

namespace Synced

variable {t : HeaderTree H} {held : Set (List (Header H))}

/-- Position `height` of the best chain is the header that far above the bottom of
    the tip's branch. -/
theorem bestChain_getElem? (S : Synced net t held) {height : Nat} {hash : H}
    (at_height : t.bestChain[height]? = some hash) :
    ∃ n rest, n :: rest ∈ held ∧ rest.length = height ∧ net.blockHash n = hash ∧
      ∀ p below, rest = p :: below → t.bestChain[below.length]? = some (net.blockHash p) := by
  obtain ⟨b, hb, at_tip⟩ := S.tip
  have chain := S.bestChain b at_tip hb
  have position : ∀ before n rest, b = before ++ n :: rest →
      t.bestChain[rest.length]? = some (net.blockHash n) := by
    intro before n rest eq
    rw [chain, eq]
    simp
  have short : height + 1 ≤ b.length := by
    have := (List.getElem?_eq_some_iff.mp at_height).1
    rw [chain, List.length_reverse, List.length_map] at this
    omega
  obtain ⟨s, ⟨before, eq⟩, length⟩ := (S.toMapOf.branch hb).exists_suffix short
  cases s with
  | nil => simp at length
  | cons n rest =>
      have here : rest.length = height := by simpa using length
      refine ⟨n, rest, S.toMapOf.suffix_mem hb ⟨before, eq⟩ (by simp), here, ?_, ?_⟩
      · have found := position before n rest eq.symm
        rw [here, at_height] at found
        exact (Option.some.inj found).symm
      · intro p below more
        apply position (before ++ [n])
        rw [← eq, more]
        simp

theorem invariant (S : Synced net t held) : Invariant net t := by
  obtain ⟨b, hb, at_tip⟩ := S.tip
  have chain := S.bestChain b at_tip hb
  obtain ⟨n, rest, rfl, key, height, work⟩ := at_tip
  exact
    { keyed := by
        intro hash entry found
        obtain ⟨m, below, -, key, rfl⟩ := S.lookup_iff.mp found
        exact key
      bottom := by
        intro hash entry found zero
        obtain ⟨m, below, hm, -, rfl⟩ := S.lookup_iff.mp found
        obtain rfl := List.length_eq_zero_iff.mp zero
        cases S.toMapOf.branch hm
        rfl
      parent := by
        intro hash entry found positive
        obtain ⟨m, below, hm, -, rfl⟩ := S.lookup_iff.mp found
        cases below with
        | nil => exact absurd positive (lt_irrefl 0)
        | cons p below =>
            have link : m.prevBlockhash = net.blockHash p := (S.toMapOf.branch hm).link
            refine ⟨entryOf net p below, ?_, rfl, ?_⟩
            · rw [← S.toMapOf.lookup (S.tail_mem hm (by simp)), ← link]
              rfl
            · simp only [entryOf, net.chainWork_cons m]
              omega
      tip := by
        refine ⟨entryOf net n rest, ?_, height.symm, work.symm⟩
        rw [← key]
        exact S.toMapOf.lookup hb
      heaviest := by
        intro hash entry found
        obtain ⟨m, below, hm, -, rfl⟩ := S.lookup_iff.mp found
        exact S.heaviest _ hm
      chain_length := by
        rw [chain, List.length_reverse, List.length_map, List.length_cons, height]
      chain_first := by
        obtain ⟨before, eq⟩ := (S.toMapOf.branch hb).root_suffix
        rw [chain, ← eq]
        simp [Network.lineage, Network.genesisHash]
      chain_last := by
        rw [chain]
        simp [key]
      chain_height := by
        intro height hash at_height
        obtain ⟨m, below, hm, rfl, rfl, -⟩ := S.bestChain_getElem? at_height
        rw [HeaderTree.heightOf, S.toMapOf.lookup hm]
        rfl
      chain_link := by
        intro height hash next at_height at_next
        obtain ⟨m, below, hm, length, rfl, down⟩ := S.bestChain_getElem? at_next
        cases below with
        | nil => simp at length
        | cons p below =>
            have found := down p below rfl
            obtain rfl : below.length = height := by simpa using length
            rw [at_height] at found
            refine ⟨_, S.toMapOf.lookup hm, ?_⟩
            rw [Option.some.inj found]
            exact (S.toMapOf.branch hm).link }

end Synced

/-- Whatever is offered, in whatever order and batches, every tree a run reaches
    keeps the invariant. -/
theorem run_invariant (net : Network H) (checkpoints : List (Checkpoint H))
    (distinct : (checkpoints.map Checkpoint.height).Nodup) (batches : List (List (Header H))) :
    Invariant net (HeaderTree.run net checkpoints batches) := by
  obtain ⟨held, S⟩ := run_synced net checkpoints distinct batches
  exact S.invariant

/-- A run on mainnet with a checkpoint at height 1, reached after a fork of it. -/
theorem run_invariant_mainnet :
    let net := Params.mainnet.network
    let fork := Params.mine net.genesis 1 1231006600 0x1d00ffff
    let block := Params.mine net.genesis 2 1231006700 0x1d00ffff
    Invariant net (HeaderTree.run net [⟨1, net.blockHash block⟩, ⟨2, []⟩]
      [[fork, Params.mine block 3 1231006800 0x1d00ffff], [block]]) := by
  intro net fork block
  apply run_invariant
  decide

end P2PObserver
