import P2PObserver.HeaderTree.Reload

/-! # The chain tips and how the RPC lists them

Walking back from a leaf meets the best chain at its highest ancestor there, so the length of
a branch is what the heights say. The RPC sorts by that length, longest first, which puts the
active tip last.
-/

namespace P2PObserver

variable {H : Type} [LinearOrder H]

namespace HeaderTree

/-- A header the tree holds and its parent; genesis has none. -/
def ChildOf (t : HeaderTree H) (parent hash : H) : Prop :=
  ∃ entry, t.headers.lookup hash = some entry ∧ 0 < entry.height ∧
    entry.header.prevBlockhash = parent

/-- Held, and no held header's parent. -/
def Leaf (t : HeaderTree H) (hash : H) : Prop :=
  hash ∈ t.headers ∧ ∀ child, ¬t.ChildOf hash child

/-- What following the parents of a held header leads to, itself included. -/
inductive Ancestor (t : HeaderTree H) : H → H → Prop
  | self {hash : H} : hash ∈ t.headers → Ancestor t hash hash
  | above {ancestor parent hash : H} : t.ChildOf parent hash → Ancestor t ancestor parent →
      Ancestor t ancestor hash

/-- The walk of `chain_tips` from a hash, with the height counted beside it: how many held
    headers it passes until it is on the best chain. -/
inductive BranchWalk (t : HeaderTree H) : Nat → H → Nat → Prop
  | joined {height : Nat} {hash : H} : t.bestChain[height]? = some hash →
      BranchWalk t height hash 0
  | back {height len : Nat} {hash : H} {entry : HeaderEntry H} :
      t.bestChain[height]? ≠ some hash → t.headers.lookup hash = some entry →
      BranchWalk t (height - 1) entry.header.prevBlockhash len →
      BranchWalk t height hash (len + 1)

/-- The item of the tip itself. -/
def activeTip (t : HeaderTree H) : ChainTip H := ⟨t.tip, t.tipHeight, 0, .active⟩

/-- What `chain_tips` lists. -/
structure TipsExact (t : HeaderTree H) : Prop where
  distinct : (t.chainTips.map ChainTip.hash).Nodup
  leaves : ∀ hash, hash ∈ t.chainTips.map ChainTip.hash ↔ t.Leaf hash
  walks : ∀ item ∈ t.chainTips, t.heightOf item.hash = some item.height ∧
    t.BranchWalk item.height item.hash item.branchLen
  active : t.chainTips.filter (·.status = .active) = [t.activeTip]
  others : ∀ item ∈ t.chainTips, item.status = .headersOnly → 1 ≤ item.branchLen ∧
    ∃ join height, t.Ancestor join item.hash ∧ t.bestChain[height]? = some join ∧
      item.branchLen + height = item.height ∧
      ∀ other height', t.Ancestor other item.hash → t.bestChain[height']? = some other →
        height' ≤ height

theorem BranchWalk.branchLen {t : HeaderTree H} {height len : Nat} {hash : H}
    (walk : t.BranchWalk height hash len) {fuel : Nat} (enough : len < fuel) :
    t.branchLen fuel height hash = len := by
  induction walk generalizing fuel with
  | joined here =>
      obtain ⟨fuel, rfl⟩ : ∃ k, fuel = k + 1 := ⟨fuel - 1, by omega⟩
      rw [HeaderTree.branchLen, if_pos here]
  | back off found walk ih =>
      obtain ⟨fuel, rfl⟩ : ∃ k, fuel = k + 1 := ⟨fuel - 1, by omega⟩
      rw [HeaderTree.branchLen, if_neg off, found]
      simp only [ih (Nat.lt_of_succ_lt_succ enough)]

theorem mem_chainTips_iff {t : HeaderTree H} {item : ChainTip H} :
    item ∈ t.chainTips ↔ ∃ entry, t.headers.lookup item.hash = some entry ∧ t.Leaf item.hash ∧
      item = ⟨item.hash, entry.height, t.branchLen (entry.height + 1) entry.height item.hash,
        if item.hash = t.tip then .active else .headersOnly⟩ := by
  have parents (hash : H) : hash ∈ (t.headers.entries.filter fun e => 0 < e.2.height).map
      (fun e => e.2.header.prevBlockhash) ↔ ∃ child, t.ChildOf hash child := by
    rw [List.mem_map]
    constructor
    · intro listed
      obtain ⟨⟨child, entry⟩, member, same⟩ := listed
      obtain ⟨stored, positive⟩ := List.mem_filter.mp member
      exact ⟨child, entry, HashMap.mem_entries_iff.mp stored, by simpa using positive, same⟩
    · intro isParent
      obtain ⟨child, entry, found, positive, same⟩ := isParent
      exact ⟨⟨child, entry⟩, List.mem_filter.mpr ⟨HashMap.mem_entries_iff.mpr found,
        by simpa using positive⟩, same⟩
  simp only [chainTips, List.mem_map, List.mem_filter, List.contains_eq_mem, parents,
    Bool.not_eq_true', decide_eq_false_iff_not]
  constructor
  · intro listed
    obtain ⟨⟨hash, entry⟩, ⟨stored, childless⟩, same⟩ := listed
    have found := HashMap.mem_entries_iff.mp stored
    subst same
    refine ⟨entry, found, ⟨HashMap.mem_iff_lookup.mpr ⟨entry, found⟩, ?_⟩, rfl⟩
    intro child childOf
    exact childless ⟨child, childOf⟩
  · intro isTip
    obtain ⟨entry, found, leaf, same⟩ := isTip
    refine ⟨⟨item.hash, entry⟩, ⟨HashMap.mem_entries_iff.mpr found, ?_⟩, same.symm⟩
    intro isParent
    obtain ⟨child, childOf⟩ := isParent
    exact leaf.2 child childOf

theorem chainTips_distinct (t : HeaderTree H) : (t.chainTips.map ChainTip.hash).Nodup := by
  have keys : t.chainTips.map ChainTip.hash = (t.headers.entries.filter fun e =>
      !((t.headers.entries.filter fun e => 0 < e.2.height).map
        fun e => e.2.header.prevBlockhash).contains e.1).map Sigma.fst := by
    simp only [chainTips, List.map_map]
    rfl
  rw [keys]
  exact t.headers.nodupKeys.sublist List.filter_sublist

end HeaderTree

namespace Invariant

variable {net : Network H} {t : HeaderTree H}

/-- An ancestor is no higher than its descendant. -/
theorem ancestor_height (I : Invariant net t) {ancestor hash : H} (path : t.Ancestor ancestor hash) :
    ∀ {entry : HeaderEntry H} {height : Nat}, t.headers.lookup hash = some entry →
      t.heightOf ancestor = some height → height ≤ entry.height := by
  induction path with
  | self held =>
      intro entry height found at_height
      rw [HeaderTree.heightOf, found] at at_height
      exact (Option.some.inj at_height).ge
  | above childOf path ih =>
      intro entry height found at_height
      obtain ⟨entry', found', positive, rfl⟩ := childOf
      rw [found] at found'
      cases found'
      obtain ⟨parent, held, one, -⟩ := I.parent _ entry found positive
      have := ih held at_height
      omega

/-- The bottom of the tree is the bottom of the best chain. -/
theorem bestChain_bottom (I : Invariant net t) {hash : H} {entry : HeaderEntry H}
    (found : t.headers.lookup hash = some entry) (bottom : entry.height = 0) :
    t.bestChain[0]? = some hash := by
  rw [← List.head?_eq_getElem?, I.chain_first, ← I.keyed hash entry found,
    I.bottom hash entry found bottom]
  rfl

/-- The walk back from a held header ends where its ancestors are highest on the best chain. -/
theorem branchWalk (I : Invariant net t) (n : Nat) : ∀ {hash : H} {entry : HeaderEntry H},
    t.headers.lookup hash = some entry → entry.height = n →
    ∃ len join height, t.BranchWalk n hash len ∧ t.Ancestor join hash ∧
      t.bestChain[height]? = some join ∧ len + height = n ∧
      ∀ other height', t.Ancestor other hash → t.bestChain[height']? = some other →
        height' ≤ height := by
  induction n with
  | zero =>
      intro hash entry found bottom
      refine ⟨0, hash, 0, .joined (I.bestChain_bottom found bottom),
        .self (HashMap.mem_iff_lookup.mpr ⟨entry, found⟩), I.bestChain_bottom found bottom, rfl, ?_⟩
      intro other height' path here
      have := I.ancestor_height path found (I.chain_height _ _ here)
      omega
  | succ n ih =>
      intro hash entry found height
      by_cases here : t.bestChain[n + 1]? = some hash
      · refine ⟨0, hash, n + 1, .joined here, .self (HashMap.mem_iff_lookup.mpr ⟨entry, found⟩),
          here, Nat.zero_add _, ?_⟩
        intro other height' path here'
        have := I.ancestor_height path found (I.chain_height _ _ here')
        omega
      · obtain ⟨parent, held, one, -⟩ := I.parent hash entry found (by omega)
        obtain ⟨len, join, low, walk, path, meets, sum, highest⟩ := ih held (by omega)
        have childOf : t.ChildOf entry.header.prevBlockhash hash :=
          ⟨entry, found, by omega, rfl⟩
        refine ⟨len + 1, join, low, .back here found walk, .above childOf path, meets,
          by omega, ?_⟩
        intro other height' path' here'
        cases path' with
        | self _ =>
            have level := I.chain_height _ _ here'
            rw [HeaderTree.heightOf, found] at level
            have own : entry.height = height' := Option.some.inj level
            rw [← own, height] at here'
            exact absurd here' here
        | above childOf' path' =>
            obtain ⟨entry', found', -, rfl⟩ := childOf'
            rw [found] at found'
            cases found'
            exact highest other height' path' here'

/-- Nothing is built on the tip: it would be heavier. -/
theorem tip_leaf (I : Invariant net t) : t.Leaf t.tip := by
  obtain ⟨tip, held, -, work⟩ := I.tip
  refine ⟨HashMap.mem_iff_lookup.mpr ⟨tip, held⟩, ?_⟩
  intro child childOf
  obtain ⟨entry, found, positive, same⟩ := childOf
  obtain ⟨parent, held', -, more⟩ := I.parent child entry found positive
  rw [same, held] at held'
  cases held'
  have heavier := I.heaviest child entry found
  have := net.work_pos entry.header
  omega

theorem tip_on_chain (I : Invariant net t) : t.bestChain[t.tipHeight]? = some t.tip := by
  have last := I.chain_last
  rw [List.getLast?_eq_getElem?, I.chain_length, Nat.add_sub_cancel] at last
  exact last

/-- A leaf on the best chain is its end. -/
theorem leaf_on_chain (I : Invariant net t) {hash : H} {height : Nat} (leaf : t.Leaf hash)
    (here : t.bestChain[height]? = some hash) : hash = t.tip := by
  have inside := (List.getElem?_eq_some_iff.mp here).1
  rw [I.chain_length] at inside
  by_cases last : height = t.tipHeight
  · rw [last, I.tip_on_chain] at here
    exact (Option.some.inj here).symm
  · have next : height + 1 < t.bestChain.length := by
      rw [I.chain_length]
      omega
    obtain ⟨entry, found, same⟩ := I.chain_link height hash _ here (List.getElem?_eq_getElem next)
    have level := I.chain_height _ _ (List.getElem?_eq_getElem next)
    rw [HeaderTree.heightOf, found] at level
    have above : entry.height = height + 1 := Option.some.inj level
    exact absurd ⟨entry, found, by omega, same⟩ (leaf.2 _)

/-- What an item of `chain_tips` says, from the leaf it stands for. -/
theorem chainTip_spec (I : Invariant net t) {item : ChainTip H} (listed : item ∈ t.chainTips) :
    t.Leaf item.hash ∧ t.heightOf item.hash = some item.height ∧
      t.BranchWalk item.height item.hash item.branchLen ∧
      (item.status = .active ↔ item.hash = t.tip) ∧
      ∃ join height, t.Ancestor join item.hash ∧ t.bestChain[height]? = some join ∧
        item.branchLen + height = item.height ∧
        ∀ other height', t.Ancestor other item.hash → t.bestChain[height']? = some other →
          height' ≤ height := by
  obtain ⟨entry, found, leaf, same⟩ := HeaderTree.mem_chainTips_iff.mp listed
  obtain ⟨len, join, height, walk, path, meets, sum, highest⟩ := I.branchWalk _ found rfl
  have length : t.branchLen (entry.height + 1) entry.height item.hash = len :=
    walk.branchLen (by omega)
  rw [length] at same
  rw [same]
  dsimp only
  refine ⟨leaf, ?_, walk, ?_, join, height, path, meets, sum, highest⟩
  · rw [HeaderTree.heightOf, found]
    rfl
  · by_cases tip : item.hash = t.tip
    · rw [if_pos tip]
      exact iff_of_true rfl tip
    · rw [if_neg tip]
      exact iff_of_false (by decide) tip

theorem tipsExact (I : Invariant net t) : t.TipsExact := by
  constructor
  case distinct => exact t.chainTips_distinct
  case leaves =>
    intro hash
    rw [List.mem_map]
    constructor
    · intro ⟨item, listed, same⟩
      rw [← same]
      exact (I.chainTip_spec listed).1
    · intro leaf
      obtain ⟨entry, found⟩ := HashMap.mem_iff_lookup.mp leaf.1
      refine ⟨⟨hash, entry.height, t.branchLen (entry.height + 1) entry.height hash,
        if hash = t.tip then .active else .headersOnly⟩, ?_, rfl⟩
      exact HeaderTree.mem_chainTips_iff.mpr ⟨entry, found, leaf, rfl⟩
  case walks =>
    intro item listed
    obtain ⟨-, height, walk, -⟩ := I.chainTip_spec listed
    exact ⟨height, walk⟩
  case active =>
    have listed : t.activeTip ∈ t.chainTips := by
      obtain ⟨tip, held, height, -⟩ := I.tip
      have walk : t.BranchWalk t.tipHeight t.tip 0 := .joined I.tip_on_chain
      refine HeaderTree.mem_chainTips_iff.mpr ⟨tip, held, I.tip_leaf, ?_⟩
      rw [← height]
      simp only [HeaderTree.activeTip, walk.branchLen (Nat.succ_pos _), if_true]
    have only : ∀ item ∈ t.chainTips.filter (·.status = .active), item.hash = t.tip := by
      intro item member
      obtain ⟨member, active⟩ := List.mem_filter.mp member
      exact (I.chainTip_spec member).2.2.2.1.mp (by simpa using active)
    have distinct : ((t.chainTips.filter (·.status = .active)).map ChainTip.hash).Nodup :=
      t.chainTips_distinct.sublist (List.filter_sublist.map _)
    have member : t.activeTip ∈ t.chainTips.filter (·.status = .active) :=
      List.mem_filter.mpr ⟨listed, rfl⟩
    generalize t.chainTips.filter (·.status = .active) = items at only distinct member ⊢
    cases items with
    | nil => cases member
    | cons item rest =>
        cases rest with
        | nil => rw [List.mem_singleton.mp member]
        | cons next rest =>
            have first := only item (by simp)
            have second := only next (by simp)
            simp [first, second] at distinct
  case others =>
    intro item listed status
    obtain ⟨leaf, -, walk, active, join, height, path, meets, sum, highest⟩ := I.chainTip_spec listed
    refine ⟨?_, join, height, path, meets, sum, highest⟩
    apply Nat.pos_of_ne_zero
    intro on_chain
    rw [on_chain] at walk
    cases walk with
    | joined here =>
        have tip := I.leaf_on_chain leaf here
        rw [active.mpr tip] at status
        cases status

end Invariant

/-- Whatever is offered, forks and pruning included, `chain_tips` lists the leaves of the tree
    and how far each is off the best chain. -/
theorem run_tipsExact (net : Network H) (checkpoints : List (Checkpoint H))
    (distinct : (checkpoints.map Checkpoint.height).Nodup) (batches : List (List (Header H))) :
    (HeaderTree.run net checkpoints batches).TipsExact :=
  (run_invariant net checkpoints distinct batches).tipsExact

/-- A run on mainnet with a checkpoint at height 1. -/
theorem run_tipsExact_mainnet :
    let net := Params.mainnet.network
    let block := Params.mine net.genesis 2 1231006700 0x1d00ffff
    (HeaderTree.run net [⟨1, net.blockHash block⟩]
      [[Params.mine net.genesis 1 1231006600 0x1d00ffff], [block]]).TipsExact := by
  intro net block
  apply run_tipsExact
  decide

/-! ## The RPC's list -/

def ChainTipStatus.text : ChainTipStatus → String
  | .active => "active"
  | .headersOnly => "headers-only"

/-- An element of the RPC's answer. -/
structure TipRow (H : Type) where
  height : Nat
  hash : H
  branchLen : Nat
  status : String
  deriving DecidableEq

def ChainTip.row (item : ChainTip H) : TipRow H :=
  ⟨item.height, item.hash, item.branchLen, item.status.text⟩

/-- The comparison of `Rpc::chain_tips`, the longer branch first and then the higher. -/
def ChainTip.cmp (a b : ChainTip H) : Ordering :=
  (compare b.branchLen a.branchLen).then (compare b.height a.height)

/-- `Rpc::chain_tips`. -/
def HeaderTree.rpcChainTips (t : HeaderTree H) : List (TipRow H) :=
  (t.chainTips.mergeSort fun a b => (a.cmp b).isLE).map ChainTip.row

/-- One answer for a tree, whatever the iteration order of its map: the active tip and then the
    others from the highest down. -/
structure OneAnswer (t : HeaderTree H) : Prop where
  same : ∀ t' : HeaderTree H, t'.SameEntries t → t'.bestChain = t.bestChain → t'.tip = t.tip →
    t'.rpcChainTips = t.rpcChainTips
  order : ∃ rest, t.rpcChainTips = t.activeTip.row :: rest ∧
    rest.Pairwise fun a b => b.height ≤ a.height

/-- No held header is off the best chain. -/
def Unforked (t : HeaderTree H) : Prop := ∀ hash, hash ∈ t.headers → hash ∈ t.bestChain

omit [LinearOrder H] in
theorem ChainTip.cmp_isLE_iff {a b : ChainTip H} : (a.cmp b).isLE = true ↔
    b.branchLen < a.branchLen ∨ b.branchLen = a.branchLen ∧ b.height ≤ a.height := by
  unfold cmp
  rcases Nat.lt_trichotomy b.branchLen a.branchLen with less | same | more
  · rw [Nat.compare_eq_lt.mpr less]
    exact iff_of_true rfl (.inl less)
  · rw [Nat.compare_eq_eq.mpr same, Ordering.eq_then, Nat.isLE_compare]
    omega
  · rw [Nat.compare_eq_gt.mpr more]
    exact iff_of_false Bool.false_ne_true (by omega)

/-- Branches come longest first. -/
theorem HeaderTree.rpcChainTips_pairwise (t : HeaderTree H) :
    t.rpcChainTips.Pairwise fun a b => b.branchLen ≤ a.branchLen := by
  have trans : ∀ a b c : ChainTip H, (a.cmp b).isLE → (b.cmp c).isLE → (a.cmp c).isLE := by
    intro a b c first second
    rw [ChainTip.cmp_isLE_iff] at *
    omega
  have total : ∀ a b : ChainTip H, (a.cmp b).isLE || (b.cmp a).isLE := by
    intro a b
    rw [Bool.or_eq_true, ChainTip.cmp_isLE_iff, ChainTip.cmp_isLE_iff]
    omega
  rw [rpcChainTips, List.pairwise_map]
  apply (List.pairwise_mergeSort trans total t.chainTips).imp
  intro a b le
  have order := ChainTip.cmp_isLE_iff.mp le
  exact order.elim Nat.le_of_lt fun both => both.1.le

namespace Invariant

variable {net : Network H} {t : HeaderTree H}

/-- A branch is never longer than the work along it, so one of them is the longest. -/
theorem height_lt_work (I : Invariant net t) (n : Nat) : ∀ {hash : H} {entry : HeaderEntry H},
    t.headers.lookup hash = some entry → entry.height = n → n ≤ entry.chainWork := by
  induction n with
  | zero => exact fun _ _ => Nat.zero_le _
  | succ n ih =>
      intro hash entry found height
      obtain ⟨parent, held, one, more⟩ := I.parent hash entry found (by omega)
      have below := ih held (by omega)
      have := net.work_pos entry.header
      omega

/-- Off the best chain there is a leaf off it. -/
theorem leaf_off_chain (I : Invariant net t) (room : Nat) : ∀ {hash : H} {entry : HeaderEntry H},
    t.headers.lookup hash = some entry → hash ∉ t.bestChain → t.tipWork ≤ entry.height + room →
    ∃ leaf, t.Leaf leaf ∧ leaf ∉ t.bestChain := by
  induction room with
  | zero =>
      intro hash entry found off full
      refine ⟨hash, ⟨HashMap.mem_iff_lookup.mpr ⟨entry, found⟩, ?_⟩, off⟩
      intro child childOf
      obtain ⟨entry', found', positive, same⟩ := childOf
      obtain ⟨parent, held, one, -⟩ := I.parent child entry' found' positive
      rw [same, found] at held
      cases held
      have high := I.height_lt_work _ found' rfl
      have heavy := I.heaviest child entry' found'
      omega
  | succ room ih =>
      intro hash entry found off full
      by_cases last : ∀ child, ¬t.ChildOf hash child
      · exact ⟨hash, ⟨HashMap.mem_iff_lookup.mpr ⟨entry, found⟩, last⟩, off⟩
      · rw [not_forall] at last
        obtain ⟨child, childOf⟩ := last
        obtain ⟨entry', found', positive, same⟩ := not_not.mp childOf
        obtain ⟨parent, held, one, -⟩ := I.parent child entry' found' positive
        rw [same, found] at held
        cases held
        apply ih found' _ (by omega)
        -- what the best chain holds, it holds the parents of
        intro on
        obtain ⟨height, here⟩ := List.mem_iff_getElem?.mp on
        have level := I.chain_height _ _ here
        rw [HeaderTree.heightOf, found'] at level
        have own : entry'.height = height := Option.some.inj level
        have inside := (List.getElem?_eq_some_iff.mp here).1
        have below : entry.height < t.bestChain.length := by omega
        rw [← own, ← one] at here
        obtain ⟨entry₂, found₂, link⟩ := I.chain_link _ _ _ (List.getElem?_eq_getElem below) here
        rw [found'] at found₂
        cases found₂
        rw [same] at link
        exact off (link ▸ List.getElem_mem below)

/-- The RPC has one answer as it should exactly where it has a single tip to list. -/
theorem oneAnswer_iff (I : Invariant net t) : OneAnswer t ↔ Unforked t := by
  have exact := I.tipsExact
  constructor
  · intro one hash held
    by_contra off
    obtain ⟨entry, found⟩ := HashMap.mem_iff_lookup.mp held
    obtain ⟨leaf, isLeaf, off⟩ := I.leaf_off_chain t.tipWork found off (by omega)
    obtain ⟨item, listed, rfl⟩ := List.mem_map.mp ((exact.leaves leaf).mpr isLeaf)
    have status : item.status = .headersOnly := by
      cases known : item.status with
      | headersOnly => rfl
      | active =>
          have active : item ∈ t.chainTips.filter (·.status = .active) :=
            List.mem_filter.mpr ⟨listed, by simpa using known⟩
          rw [exact.active] at active
          rw [List.mem_singleton.mp active] at off
          exact absurd (List.mem_of_getElem? I.tip_on_chain) off
    have long := (exact.others item listed status).1
    obtain ⟨rest, answer, -⟩ := one.order
    have sorted := t.rpcChainTips_pairwise
    have row : item.row ∈ t.rpcChainTips :=
      List.mem_map_of_mem (List.mem_mergeSort.mpr listed)
    rw [answer] at sorted row
    rcases List.mem_cons.mp row with same | later
    · have zero : item.branchLen = 0 := congrArg TipRow.branchLen same
      omega
    · have shorter : item.branchLen ≤ 0 := (List.pairwise_cons.mp sorted).1 _ later
      omega
  · intro unforked
    have only : t.chainTips = [t.activeTip] := by
      rw [← exact.active, eq_comm, List.filter_eq_self]
      intro item listed
      obtain ⟨leaf, -, -, active, -⟩ := I.chainTip_spec listed
      obtain ⟨height, here⟩ := List.mem_iff_getElem?.mp (unforked _ leaf.1)
      simpa using active.mpr (I.leaf_on_chain leaf here)
    have answer : t.rpcChainTips = [t.activeTip.row] := by
      rw [HeaderTree.rpcChainTips, only, List.mergeSort_singleton]
      rfl
    refine ⟨fun t' entries chain tip => ?_, [], answer, .nil⟩
    have perm := HeaderTree.chainTips_perm entries chain tip
    rw [only, List.perm_singleton] at perm
    rw [answer, HeaderTree.rpcChainTips, perm, List.mergeSort_singleton]
    rfl

end Invariant

/-- In every tree a run reaches, the RPC's list is as its comment says exactly if the tree has
    no fork. -/
theorem run_oneAnswer_iff (net : Network H) (checkpoints : List (Checkpoint H))
    (distinct : (checkpoints.map Checkpoint.height).Nodup) (batches : List (List (Header H))) :
    OneAnswer (HeaderTree.run net checkpoints batches) ↔
      Unforked (HeaderTree.run net checkpoints batches) :=
  (run_invariant net checkpoints distinct batches).oneAnswer_iff

namespace TwoTips

open Params

/-- Two blocks on top of genesis. -/
def first : Header (List Nat) := mine mainnet.genesis 11 1231006600 0x1d00ffff
def second : Header (List Nat) := mine mainnet.genesis 12 1231006700 0x1d00ffff

end TwoTips

/-- Beside a fork the active tip is not the first of the list. -/
theorem forked_answer : ¬ ∀ (net : Network (List Nat)) (checkpoints : List (Checkpoint (List Nat)))
    (batches : List (List (Header (List Nat)))), (checkpoints.map Checkpoint.height).Nodup →
      OneAnswer (HeaderTree.run net checkpoints batches) := by
  intro all
  have one := all Params.mainnet.network [] [[TwoTips.first], [TwoTips.second]] .nil
  have invariant := run_invariant Params.mainnet.network [] .nil [[TwoTips.first], [TwoTips.second]]
  have unforked := invariant.oneAnswer_iff.mp one (Params.mainnet.network.blockHash TwoTips.second)
  exact absurd (unforked (by decide +kernel)) (by decide +kernel)

/-- A chain of two blocks has one answer. -/
theorem run_oneAnswer_iff_chain :
    OneAnswer (HeaderTree.run Params.mainnet.network [] [[TwoTips.first]]) ↔
      Unforked (HeaderTree.run Params.mainnet.network [] [[TwoTips.first]]) :=
  run_oneAnswer_iff _ _ (by decide) _

end P2PObserver
