import P2PObserver.HeaderTree.Persist
import P2PObserver.HeaderTree.Mined

/-! # What a reload gives back

Replaying the file puts every header back, because what the tree holds is what its own
headers settle. The tip it comes back to is the first of the heaviest in file order,
which is the old tip unless a shorter branch carries the same work.
-/

namespace P2PObserver

variable {H : Type} [LinearOrder H] {net : Network H} {t : HeaderTree H}
  {held : Set (List (Header H))}

/-! ## The order of the file -/

/-- `m` may come before `n` in the file: it is no higher, and at the same height no
    header off the best chain comes before one on it. -/
def WrittenBefore (net : Network H) (bestChain : List H) (held : Set (List (Header H)))
    (m n : Header H) : Prop :=
  ∀ rest below, m :: rest ∈ held → n :: below ∈ held →
    rest.length ≤ below.length ∧
      (rest.length = below.length → net.blockHash n ∈ bestChain → net.blockHash m ∈ bestChain)

theorem HeaderTree.fileKey_le {bestChain : List H} {e f : Sigma fun _ : H => HeaderEntry H}
    (le : fileKey bestChain e ≤ fileKey bestChain f) :
    e.2.height ≤ f.2.height ∧ (e.2.height = f.2.height → f.1 ∈ bestChain → e.1 ∈ bestChain) := by
  rw [fileKey, fileKey, Prod.Lex.toLex_le_toLex] at le
  cases le with
  | inl lower => exact ⟨lower.le, fun same => absurd same lower.ne⟩
  | inr level =>
      obtain ⟨same, le⟩ := level
      refine ⟨same.le, fun _ on_best => ?_⟩
      by_contra off_best
      simp [off_best, on_best, Prod.Lex.toLex_le_toLex] at le
      exact absurd le (by decide)

namespace Represents

theorem mem_fileHeaders (R : Represents net t held) {n : Header H} :
    n ∈ t.fileHeaders ↔ ∃ rest, n :: rest ∈ held := by
  simp only [HeaderTree.fileHeaders, List.mem_map]
  constructor
  · rintro ⟨⟨x, e⟩, written, rfl⟩
    obtain ⟨n, rest, member, -, rfl⟩ := R.lookup_iff.mp (HashMap.mem_sortedBy.mp written)
    exact ⟨rest, member⟩
  · rintro ⟨rest, member⟩
    exact ⟨⟨net.blockHash n, entryOf net n rest⟩,
      HashMap.mem_sortedBy.mpr (R.toMapOf.lookup member), rfl⟩

theorem fileHeaders_pairwise (R : Represents net t held) :
    t.fileHeaders.Pairwise (WrittenBefore net t.bestChain held) := by
  rw [HeaderTree.fileHeaders, List.pairwise_map]
  have sorted : t.fileEntries.Pairwise _ :=
    HashMap.sortedBy_pairwise (HeaderTree.fileKey t.bestChain) t.headers
  refine sorted.imp_of_mem ?_
  rintro ⟨x, e⟩ ⟨y, f⟩ inside inside' le rest below held_m held_n
  have order := HeaderTree.fileKey_le le
  obtain ⟨m, rest', held_m', rfl, rfl⟩ := R.lookup_iff.mp (HashMap.mem_sortedBy.mp inside)
  obtain ⟨n, below', held_n', rfl, rfl⟩ := R.lookup_iff.mp (HashMap.mem_sortedBy.mp inside')
  obtain rfl := (R.toMapOf.branch held_m).unique (R.toMapOf.branch held_m')
  obtain rfl := (R.toMapOf.branch held_n).unique (R.toMapOf.branch held_n')
  exact order

/-- A header comes after every header below it on its branch. -/
theorem ancestor_before (R : Represents net t held) {before after : List (Header H)}
    {header n : Header H} {rest : List (Header H)}
    (split : t.fileHeaders = before ++ header :: after) (member : header :: rest ∈ held)
    (ancestor : n ∈ rest) : n ∈ before := by
  obtain ⟨upper, lower, eq⟩ := List.append_of_mem ancestor
  have below : n :: lower ∈ held :=
    R.suffix_mem member (by rw [eq]; exact ⟨header :: upper, rfl⟩) (by simp)
  have shorter : lower.length < rest.length := by
    rw [eq]
    simp
    omega
  have written : n ∈ t.fileHeaders := R.mem_fileHeaders.mpr ⟨lower, below⟩
  have order := R.fileHeaders_pairwise
  rw [split] at written order
  cases List.mem_append.mp written with
  | inl early => exact early
  | inr late =>
      have le : rest.length ≤ lower.length := by
        cases List.mem_cons.mp late with
        | inl same =>
            subst same
            rw [(R.toMapOf.branch member).unique (R.toMapOf.branch below)]
        | inr later =>
            have next := (List.pairwise_append.mp order).2.1
            exact (List.rel_of_pairwise_cons next later rest lower member below).1
      omega

theorem parentFirst_fileHeaders (R : Represents net t held) :
    ParentFirst net t.fileHeaders := by
  intro before header after split off parent written link
  obtain ⟨below, held_parent⟩ := R.mem_fileHeaders.mp written
  have own : header ∈ t.fileHeaders := by simp [split]
  obtain ⟨rest, member⟩ := R.mem_fileHeaders.mp own
  right
  refine R.ancestor_before split member ?_
  cases rest with
  | nil =>
      cases R.toMapOf.branch member
      exact absurd rfl off
  | cons p rest =>
      have down := R.toMapOf.eq_of_hash held_parent
        (R.toMapOf.branch (R.tail_mem member (by simp)))
        (link.trans (R.toMapOf.branch member).link)
      rw [(List.cons.inj down).1]
      exact List.mem_cons_self

/-- Candidates among headers the tree holds are branches it holds. -/
theorem candidate_mem (R : Represents net t held) {delivered b : List (Header H)}
    (sub : delivered ⊆ t.fileHeaders) (h : Candidate net t.checkpoints delivered b) :
    b ∈ held := by
  cases b with
  | nil => exact absurd rfl h.admissible.isBranch.ne_nil
  | cons n rest =>
      by_cases root : n = net.genesis
      · subst root
        have own := h.admissible.isBranch.unique (R.toMapOf.branch R.root_mem)
        rw [own]
        exact R.root_mem
      · obtain ⟨below, member⟩ :=
          R.mem_fileHeaders.mp (sub (h.delivered n List.mem_cons_self root))
        rw [h.admissible.isBranch.unique (R.toMapOf.branch member)]
        exact member

/-- Once a header of the file and all before it are delivered, its branch is settled. -/
theorem settled_of_prefix (R : Represents net t held) {before after : List (Header H)}
    {header : Header H} {rest : List (Header H)}
    (split : t.fileHeaders = before ++ header :: after) (member : header :: rest ∈ held) :
    header :: rest ∈ settled net t.checkpoints (before ++ [header]) := by
  refine ⟨⟨R.admissible _ member, ?_⟩, ?_⟩
  · intro n inside _
    cases List.mem_cons.mp inside with
    | inl same => simp [same]
    | inr ancestor => exact List.mem_append_left _ (R.ancestor_before split member ancestor)
  · intro c hc isCheckpoint
    have sub : before ++ [header] ⊆ t.fileHeaders := by
      rw [split]
      intro n inside
      simp only [List.mem_append, List.mem_cons, List.not_mem_nil, or_false] at inside ⊢
      tauto
    exact R.comparable_checkpoint member (R.candidate_mem sub hc) isCheckpoint

/-- What a tree holds is what its own headers settle. -/
theorem settled_fileHeaders (R : Represents net t held) :
    settled net t.checkpoints t.fileHeaders = held := by
  ext b
  constructor
  · intro hb
    exact R.candidate_mem (List.Subset.refl _) hb.1
  · intro hb
    refine ⟨⟨R.admissible b hb, ?_⟩, ?_⟩
    · intro n inside _
      obtain ⟨before, after, rfl⟩ := List.append_of_mem inside
      exact R.mem_fileHeaders.mpr ⟨after, R.suffix_mem hb (List.suffix_append _ _) (by simp)⟩
    · intro c hc isCheckpoint
      exact R.comparable_checkpoint hb (R.candidate_mem (List.Subset.refl _) hc) isCheckpoint

end Represents

/-! ## The tip of a replay -/

/-- `n` carries the most work on its branch, and more than any header listed earlier. -/
def FirstHeaviest (net : Network H) (held : Set (List (Header H))) (n : Header H)
    (listed : List (Header H)) : Prop :=
  ∃ rest before after, n :: rest ∈ held ∧ listed = before ++ n :: after ∧
    (∀ m ∈ before, ∀ below, m :: below ∈ held →
      net.chainWork (m :: below) < net.chainWork (n :: rest)) ∧
    ∀ m ∈ after, ∀ below, m :: below ∈ held →
      net.chainWork (m :: below) ≤ net.chainWork (n :: rest)

namespace FirstHeaviest

variable {n : Header H} {listed : List (Header H)}

omit [LinearOrder H] in
theorem le (F : FirstHeaviest net held n listed) {rest : List (Header H)}
    (M : ∀ b ∈ held, net.IsBranch b) (member : n :: rest ∈ held) :
    ∀ m ∈ listed, ∀ below, m :: below ∈ held →
      net.chainWork (m :: below) ≤ net.chainWork (n :: rest) := by
  obtain ⟨rest', before, after, member', split, lighter, no_heavier⟩ := F
  obtain rfl := (M _ member).unique (M _ member')
  intro m inside below held_m
  rw [split, List.mem_append, List.mem_cons] at inside
  rcases inside with early | same | late
  · exact (lighter m early below held_m).le
  · subst same
    rw [(M _ held_m).unique (M _ member)]
  · exact no_heavier m late below held_m

omit [LinearOrder H] in
/-- A header no heavier leaves the first heaviest where it is. -/
theorem append_light (F : FirstHeaviest net held n listed) {header : Header H}
    (light : ∀ rest below, n :: rest ∈ held → header :: below ∈ held →
      net.chainWork (header :: below) ≤ net.chainWork (n :: rest)) :
    FirstHeaviest net held n (listed ++ [header]) := by
  obtain ⟨rest, before, after, member, split, lighter, no_heavier⟩ := F
  refine ⟨rest, before, after ++ [header], member, by simp [split], lighter, ?_⟩
  intro m inside below held_m
  cases List.mem_append.mp inside with
  | inl old => exact no_heavier m old below held_m
  | inr new =>
      obtain rfl := List.mem_singleton.mp new
      exact light rest below member held_m

omit [LinearOrder H] in
/-- A heavier header is the new first heaviest. -/
theorem append_heavy (F : FirstHeaviest net held n listed) {header : Header H}
    {rest below : List (Header H)} (M : ∀ b ∈ held, net.IsBranch b) (member : n :: rest ∈ held)
    (member' : header :: below ∈ held)
    (heavy : net.chainWork (n :: rest) < net.chainWork (header :: below)) :
    FirstHeaviest net held header (listed ++ [header]) := by
  refine ⟨below, listed, [], member', rfl, ?_, by simp⟩
  intro m inside below' held_m
  exact (F.le M member m inside below' held_m).trans_lt heavy

end FirstHeaviest

/-- The state of a replay after some of the file. -/
structure Replayed (net : Network H) (t : HeaderTree H) (held : Set (List (Header H)))
    (u : HeaderTree H) (done : List (Header H)) : Prop where
  checkpoints : u.checkpoints = t.checkpoints
  represents : Represents net u (settled net t.checkpoints done)
  tip : ∃ n, u.tip = net.blockHash n ∧ FirstHeaviest net held n (net.genesis :: done)

namespace Replayed

variable {u : HeaderTree H} {done after : List (Header H)} {header : Header H}

/-- Every header of the file is known or accepted when its turn comes, and it becomes
    the tip exactly if it is heavier than all before it. -/
theorem insertInner (P : Replayed net t held u done) (R : Represents net t held)
    (split : t.fileHeaders = done ++ header :: after) :
    Replayed net t held (u.insertInner net header).1 (done ++ [header]) := by
  have order : ParentFirst net (done ++ [header]) := by
    have whole := R.parentFirst_fileHeaders
    rw [split, ← List.singleton_append, ← List.append_assoc] at whole
    exact whole.of_append
  have settles := P.represents
  rw [← P.checkpoints] at settles
  have after_step := settles.settled_insertInner order
  rw [P.checkpoints] at after_step
  obtain ⟨rest, member⟩ := R.mem_fileHeaders.mp (show header ∈ t.fileHeaders by simp [split])
  have here := R.settled_of_prefix split member
  have branch : ∀ b ∈ held, net.IsBranch b := fun b hb => R.toMapOf.branch hb
  obtain ⟨n, tip, first⟩ := P.tip
  have ⟨own, _, _, own_member, _⟩ := first
  have tipWork : u.tipWork = net.chainWork (n :: own) := by
    obtain ⟨b, hb, m, below, rfl, key, -, work⟩ := settles.tip
    rw [← work, (settles.toMapOf.branch hb).unique_of_key (branch _ own_member) (key.trans tip)]
  have sub : done ⊆ t.fileHeaders := by
    rw [split]
    exact List.subset_append_left _ _
  have listed : net.genesis :: (done ++ [header]) = (net.genesis :: done) ++ [header] := rfl
  have absent_stays : ∀ u', HeaderTree.SameChain u u' →
      Represents net u' (settled net t.checkpoints (done ++ [header])) →
      (∀ below, header :: below ∉ settled net u.checkpoints done) → False := by
    intro u' same R' fresh
    have inside := R'.toMapOf.mem_iff.mpr ⟨header, rest, here, rfl⟩
    rw [same.headers] at inside
    obtain ⟨m, below, held_m, key⟩ := settles.toMapOf.mem_iff.mp inside
    obtain rfl := net.blockHash_injective key
    exact fresh below held_m
  have outcome := settles.insertInner_outcome header
  generalize (u.insertInner net header).1 = u', (u.insertInner net header).2 = result
    at outcome after_step ⊢
  cases outcome with
  | known known =>
      rename_i below
      refine ⟨P.checkpoints, after_step, n, tip, listed ▸ first.append_light ?_⟩
      intro rest' below' held_n held_h
      rw [(branch _ held_n).unique (branch _ own_member), ← tipWork,
        (branch _ held_h).unique (settles.toMapOf.branch known)]
      exact settles.heaviest _ known
  | unplaced fresh missing =>
      exact absurd fresh (absent_stays _ (HeaderTree.refuseUnplaced_sameChain net u header) after_step)
  | refused fresh parent link said =>
      exact absurd fresh (absent_stays _ (HeaderTree.rememberRejected_sameChain u _ _) after_step)
  | accepted ok =>
      rename_i p below
      obtain rfl := (branch _ member).unique (ok.admissible settles).isBranch
      have tolerated : IsCheckpoint net u.checkpoints (header :: p :: below) →
          ∀ b ∈ settled net u.checkpoints done, Lineage.Comparable b (header :: p :: below) := by
        intro isCheckpoint b hb
        rw [P.checkpoints] at isCheckpoint hb
        exact R.comparable_checkpoint (R.candidate_mem sub hb.1) member isCheckpoint
      have moved := settles.accept_tip_of_comparable ok tolerated
      have checkpoints := (HeaderTree.accept_sameRefusals net u header (entryOf net p below)).checkpoints
      rw [tipWork] at moved
      refine ⟨checkpoints.trans P.checkpoints, after_step, ?_⟩
      by_cases heavier : net.chainWork (n :: own) < net.chainWork (header :: p :: below)
      · rw [if_pos heavier] at moved
        exact ⟨header, moved, listed ▸ first.append_heavy branch own_member member heavier⟩
      · rw [if_neg heavier] at moved
        refine ⟨n, moved.trans tip, listed ▸ first.append_light ?_⟩
        intro rest' below' held_n held_h
        rw [(branch _ held_n).unique (branch _ own_member), (branch _ held_h).unique (branch _ member)]
        exact Nat.le_of_not_lt heavier

theorem insertEach {checkpoints : List (Checkpoint H)}
    (distinct : (checkpoints.map Checkpoint.height).Nodup)
    (sorted : t.checkpoints = sortedCheckpoints checkpoints) (R : Represents net t held)
    (split : t.fileHeaders = done ++ after) :
    Replayed net t held ((HeaderTree.withCheckpoints net checkpoints).insertEach net done).1 done := by
  induction done using List.reverseRecOn generalizing after with
  | nil =>
      have start := (withCheckpoints_synced net checkpoints distinct).toRepresents
      have same : (HeaderTree.withCheckpoints net checkpoints).checkpoints = t.checkpoints :=
        (run_checkpoints net checkpoints []).trans sorted.symm
      refine ⟨same, ?_, net.genesis, ?_, [], [], [], R.root_mem, rfl, by simp, by simp⟩
      · rw [settled_nil]
        exact start
      · exact ((start.atTip_iff rfl).mp (by
          obtain ⟨b, hb, at_tip⟩ := start.tip
          rw [← Set.mem_singleton_iff.mp hb]
          exact at_tip)).symm
  | append_singleton done header ih =>
      rw [List.append_assoc, List.singleton_append] at split
      rw [HeaderTree.insertEach_append_tree, HeaderTree.insertEach_cons_tree]
      exact (ih split).insertInner R split

end Replayed

/-! ## The tree that comes back -/

/-- Every held header that carries the tip's work is at least as high as the tip. -/
def NoShorterTie (t : HeaderTree H) : Prop :=
  ∀ e ∈ t.headers.entries, e.2.chainWork = t.tipWork → t.tipHeight ≤ e.2.height

theorem Represents.listed_pairwise (R : Represents net t held) :
    (net.genesis :: t.fileHeaders).Pairwise (WrittenBefore net t.bestChain held) := by
  refine List.pairwise_cons.mpr ⟨?_, R.fileHeaders_pairwise⟩
  intro n _ rest below root held_n
  obtain rfl := (R.toMapOf.branch root).unique (R.toMapOf.branch R.root_mem)
  refine ⟨Nat.zero_le _, fun level on_best => ?_⟩
  obtain rfl := List.length_eq_zero_iff.mp level.symm
  cases R.toMapOf.branch held_n
  exact on_best

theorem NoShorterTie.le (no_shorter : NoShorterTie t) (R : Represents net t held) {n : Header H}
    {rest : List (Header H)} (member : n :: rest ∈ held)
    (work : net.chainWork (n :: rest) = t.tipWork) : t.tipHeight ≤ rest.length :=
  no_shorter ⟨net.blockHash n, entryOf net n rest⟩
    (HashMap.mem_entries_iff.mpr (R.toMapOf.lookup member)) work

theorem insertBatch_noShorterTie (net : Network H) (t : HeaderTree H) (headers : List (Header H)) :
    ((t.insertBatch net headers).1.dirty = (t.insertEach net headers).1.dirty) ∧
      (NoShorterTie (t.insertBatch net headers).1 ↔ NoShorterTie (t.insertEach net headers).1) := by
  obtain ⟨bestChain, eq⟩ := HeaderTree.insertBatch_eq net t headers
  rw [eq]
  exact ⟨rfl, Iff.rfl⟩

/-- In file order the tip is the first of the heaviest exactly if no shorter branch ties
    with it. -/
theorem Synced.firstHeaviest_tip_iff (S : Synced net t held) {n : Header H}
    (first : FirstHeaviest net held n (net.genesis :: t.fileHeaders)) :
    net.blockHash n = t.tip ↔ NoShorterTie t := by
  have branch : ∀ b ∈ held, net.IsBranch b := fun b hb => S.toMapOf.branch hb
  have written : ∀ m below, m :: below ∈ held → m ∈ net.genesis :: t.fileHeaders :=
    fun m below held_m =>
      List.mem_cons_of_mem _ (S.toRepresents.mem_fileHeaders.mpr ⟨below, held_m⟩)
  obtain ⟨top_branch, top_held, at_tip⟩ := S.tip
  have chain := S.bestChain _ at_tip top_held
  obtain ⟨top, below_top, rfl, top_key, top_height, top_work⟩ := at_tip
  have ⟨rest, before, after, held_n, split, lighter, _⟩ := first
  have work : net.chainWork (n :: rest) = t.tipWork := by
    apply Nat.le_antisymm
    · exact S.heaviest _ held_n
    · rw [← top_work]
      exact first.le branch held_n top (written top below_top top_held) below_top top_held
  -- Whoever carries the tip's work comes at or after `n`.
  have later : ∀ m below, m :: below ∈ held → net.chainWork (m :: below) = t.tipWork →
      m = n ∨ WrittenBefore net t.bestChain held n m := by
    intro m below held_m same
    have inside := written m below held_m
    have order := S.toRepresents.listed_pairwise
    rw [split] at inside order
    cases List.mem_append.mp inside with
    | inl early =>
        have lighter := lighter m early below held_m
        omega
    | inr late =>
        cases List.mem_cons.mp late with
        | inl same => exact .inl same
        | inr late => exact .inr (List.rel_of_pairwise_cons (List.pairwise_append.mp order).2.1 late)
  constructor
  · intro same e inside same_work
    obtain ⟨m, below, held_m, key, eq⟩ := S.lookup_iff.mp (HashMap.mem_entries_iff.mp inside)
    have height : rest.length = t.tipHeight := by
      rw [← top_height, (List.cons.inj ((branch _ held_n).unique_of_key (branch _ top_held)
        (same.trans top_key.symm))).2]
    rw [eq] at same_work ⊢
    cases later m below held_m same_work with
    | inl same =>
        subst same
        rw [(branch _ held_m).unique (branch _ held_n)]
        exact height.ge
    | inr order =>
        have le := (order rest below held_n held_m).1
        rw [height] at le
        exact le
  · intro no_shorter
    cases later top below_top top_held top_work with
    | inl same => rw [← same, top_key]
    | inr order =>
        obtain ⟨le, on_best⟩ := order rest below_top held_n top_held
        have ge := no_shorter.le S.toRepresents held_n work
        have level : rest.length = below_top.length := by omega
        have top_on_best : net.blockHash top ∈ t.bestChain := by
          rw [chain]
          simp
        have member : n ∈ top :: below_top := by
          have listed := on_best level top_on_best
          rw [chain, List.mem_reverse, List.mem_map_of_injective net.blockHash_injective] at listed
          exact listed
        have same := ((branch _ top_held).suffix_of_mem member (branch _ held_n)).eq_of_length
          (by simp [level])
        rw [(List.cons.inj same).1, top_key]

/-- A tree that came back as the one that was saved. -/
structure SameTree (t loaded : HeaderTree H) : Prop where
  entries : loaded.SameEntries t
  tip : loaded.tip = t.tip
  bestChain : loaded.bestChain = t.bestChain
  reachedCheckpoint : loaded.reachedCheckpoint = t.reachedCheckpoint
  chainTips : loaded.chainTips.Perm t.chainTips

/-- The chain tips are those of the entries, the best chain and the tip, in some order. -/
theorem HeaderTree.chainTips_perm {t t' : HeaderTree H} (entries : t'.SameEntries t)
    (bestChain : t'.bestChain = t.bestChain) (tip : t'.tip = t.tip) :
    t'.chainTips.Perm t.chainTips := by
  have perm := HashMap.entries_perm entries
  have walk : ∀ fuel height hash, t'.branchLen fuel height hash = t.branchLen fuel height hash := by
    intro fuel
    induction fuel with
    | zero => intros; rfl
    | succ fuel ih =>
        intro height hash
        have found : t'.headers.lookup hash = t.headers.lookup hash := entries hash
        simp only [branchLen, bestChain, found, ih]
  simp only [chainTips, walk, tip]
  have parents : ∀ hash,
      hash ∈ (t'.headers.entries.filter fun e => 0 < e.2.height).map
        (fun e => e.2.header.prevBlockhash) ↔
      hash ∈ (t.headers.entries.filter fun e => 0 < e.2.height).map
        (fun e => e.2.header.prevBlockhash) :=
    fun hash => ((perm.filter _).map _).mem_iff
  simp only [List.contains_eq_mem, parents]
  exact (perm.filter _).map _

/-- Replaying the file of a tree gives the same branches, and a best chain up to date. -/
theorem Synced.reload {checkpoints : List (Checkpoint H)}
    (distinct : (checkpoints.map Checkpoint.height).Nodup)
    (sorted : t.checkpoints = sortedCheckpoints checkpoints) (S : Synced net t held) :
    Synced net (HeaderTree.reload net checkpoints t.fileHeaders) held ∧
      (HeaderTree.reload net checkpoints t.fileHeaders).checkpoints = t.checkpoints ∧
      ((HeaderTree.reload net checkpoints t.fileHeaders).tip = t.tip ↔ NoShorterTie t) := by
  have whole : t.fileHeaders = t.fileHeaders ++ [] := (List.append_nil _).symm
  have replay := Replayed.insertEach distinct sorted S.toRepresents whole
  obtain ⟨same, R, n, tip, first⟩ := replay
  rw [S.toRepresents.settled_fileHeaders] at R
  obtain ⟨b, hb, at_tip⟩ := R.tip
  have rebuilt := HeaderTree.rebuildBestChain_eq R.toMapOf hb at_tip
  rw [HeaderTree.reload, rebuilt]
  refine ⟨⟨⟨R.toMapOf, R.heights_nodup, R.unreached, R.reached, R.tip, R.heaviest⟩, ?_⟩, same, ?_⟩
  · intro c at_tip' hc
    rw [at_tip'.unique at_tip (R.toMapOf.branch hc) (R.toMapOf.branch hb) rfl]
    rfl
  · rw [← S.firstHeaviest_tip_iff first, ← tip]

/-- Two trees up to date with the same entries and tip have the same best chain. -/
theorem Synced.bestChain_congr {t' : HeaderTree H} {held' : Set (List (Header H))}
    (S : Synced net t held) (S' : Synced net t' held') (tip : t'.tip = t.tip) :
    t'.bestChain = t.bestChain := by
  obtain ⟨b, hb, at_tip⟩ := S.tip
  obtain ⟨b', hb', at_tip'⟩ := S'.tip
  have same := at_tip'.unique at_tip (S'.toMapOf.branch hb') (S.toMapOf.branch hb) tip
  have chain := S.bestChain b at_tip hb
  have chain' := S'.bestChain b' at_tip' hb'
  rw [chain', chain, same]

theorem HeaderTree.fileHeaders_congr {t t' : HeaderTree H} (entries : t'.SameEntries t)
    (bestChain : t'.bestChain = t.bestChain) : t'.fileHeaders = t.fileHeaders := by
  rw [fileHeaders, fileHeaders, fileEntries, fileEntries, bestChain]
  congr 1
  refine HashMap.sortedBy_congr entries ?_
  intro e f same
  exact congrArg (fun key => (ofLex (ofLex key).2).2) same

/-- Saving the tree and loading the file gives the tree back, and the file depends on the
    entries and the tip alone. -/
structure SurvivesRestart (codec : HeaderCodec H) (net : Network H)
    (checkpoints : List (Checkpoint H)) (t : HeaderTree H) : Prop where
  reload : ∃ bytes loaded, (t.save codec true).2 = .written bytes ∧
    HeaderTree.load codec net checkpoints (.found bytes) = .ok loaded ∧ SameTree t loaded
  bytes : ∀ checkpoints' batches, (checkpoints'.map Checkpoint.height).Nodup →
    (HeaderTree.run net checkpoints' batches).SameEntries t →
    (HeaderTree.run net checkpoints' batches).tip = t.tip →
    (HeaderTree.run net checkpoints' batches).fileBytes codec = t.fileBytes codec

/-- What a reload gives back, short of the codec: the same tree exactly if no shorter
    branch ties with the tip. -/
theorem Synced.sameTree_reload_iff {checkpoints : List (Checkpoint H)}
    (distinct : (checkpoints.map Checkpoint.height).Nodup)
    (sorted : t.checkpoints = sortedCheckpoints checkpoints) (S : Synced net t held) :
    SameTree t (HeaderTree.reload net checkpoints t.fileHeaders) ↔ NoShorterTie t := by
  obtain ⟨S', same, tip_iff⟩ := S.reload distinct sorted
  rw [← tip_iff]
  constructor
  · intro same
    exact same.tip
  · intro tip
    obtain ⟨entries, reached, -⟩ := S'.toRepresents.agree S.toRepresents same
    have chain := S.bestChain_congr S' tip
    exact ⟨entries, tip, chain, reached, HeaderTree.chainTips_perm entries chain tip⟩

/-- A saved tree comes back exactly if no shorter branch ties with the tip. -/
theorem run_survives_restart_iff (net : Network H) (checkpoints : List (Checkpoint H))
    (distinct : (checkpoints.map Checkpoint.height).Nodup) (batches : List (List (Header H)))
    (codec : HeaderCodec H)
    (sound : HeaderTree.RoundTrips codec (HeaderTree.run net checkpoints batches).fileHeaders)
    (dirty : (HeaderTree.run net checkpoints batches).dirty = true) :
    SurvivesRestart codec net checkpoints (HeaderTree.run net checkpoints batches) ↔
      NoShorterTie (HeaderTree.run net checkpoints batches) := by
  obtain ⟨held, S⟩ := run_synced net checkpoints distinct batches
  have sorted := run_checkpoints net checkpoints batches
  generalize HeaderTree.run net checkpoints batches = t at S sound dirty sorted ⊢
  have saved : (t.save codec true).2 = .written (t.fileBytes codec) := by
    simp [HeaderTree.save, dirty]
  have loaded : HeaderTree.load codec net checkpoints (.found (t.fileBytes codec)) =
      .ok (HeaderTree.reload net checkpoints t.fileHeaders) := HeaderTree.load_flatMap sound
  rw [← S.sameTree_reload_iff distinct sorted]
  constructor
  · intro survives
    obtain ⟨bytes, back, written, read, same⟩ := survives.reload
    rw [saved] at written
    cases written
    rw [loaded] at read
    cases read
    exact same
  · intro same
    refine ⟨⟨_, _, saved, loaded, same⟩, ?_⟩
    intro checkpoints' batches' distinct' entries tip
    obtain ⟨held', S'⟩ := run_synced net checkpoints' distinct' batches'
    rw [HeaderTree.fileBytes, HeaderTree.fileBytes,
      HeaderTree.fileHeaders_congr entries (S.bestChain_congr S' tip)]

/-! ## A shorter branch with the same work -/

/-- A record for a header known by its merkle root. -/
def recordOf (header : Header (List Nat)) : List UInt8 :=
  (List.range HEADER_SIZE).map fun i => UInt8.ofNat (header.merkleRoot / 256 ^ i)

/-- A codec for a handful of headers. -/
def recordCodec (known : List (Header (List Nat))) : HeaderCodec (List Nat) where
  serialize := recordOf
  deserialize record := known.find? fun header => recordOf header = record

theorem recordCodec_roundTrips {known headers : List (Header (List Nat))}
    (sub : ∀ header ∈ headers, header ∈ known)
    (small : ∀ header ∈ known, header.merkleRoot < 2 ^ 16)
    (apart : ∀ header ∈ known, ∀ header' ∈ known, header.merkleRoot = header'.merkleRoot →
      header = header') : HeaderTree.RoundTrips (recordCodec known) headers := by
  intro header member
  refine ⟨by simp [recordCodec, recordOf], ?_⟩
  have here := sub header member
  cases found : known.find? fun header' => recordOf header' = recordOf header with
  | none =>
      have missed := List.find?_eq_none.mp found header here
      simp at missed
  | some header' =>
      have here' := List.mem_of_find?_eq_some found
      have same : recordOf header' = recordOf header := by simpa using List.find?_some found
      have digit : ∀ i, i < HEADER_SIZE →
          UInt8.ofNat (header'.merkleRoot / 256 ^ i) = UInt8.ofNat (header.merkleRoot / 256 ^ i) :=
        fun i lt => List.map_inj_left.mp same i (List.mem_range.mpr lt)
      have low := congrArg UInt8.toNat (digit 0 (by decide))
      have high := congrArg UInt8.toNat (digit 1 (by decide))
      simp only [UInt8.toNat_ofNat', pow_zero, Nat.div_one, pow_one] at low high
      have bound := small header here
      have bound' := small header' here'
      rw [apart header' here' header here (by omega)] at found
      exact found

/-- A block a day and its parent, saved and loaded. -/
theorem run_survives_restart_iff_mainnet :
    let block := Params.mine Params.mainnet.genesis 1 1231092905 0x1d00ffff
    SurvivesRestart (recordCodec [Params.mainnet.genesis, block]) Params.mainnet.network []
        (HeaderTree.run Params.mainnet.network [] [[block]]) ↔
      NoShorterTie (HeaderTree.run Params.mainnet.network [] [[block]]) := by
  intro block
  apply run_survives_restart_iff
  · simp
  · unfold HeaderTree.RoundTrips
    decide +kernel
  · decide +kernel

namespace Tie

/-- A chain at difficulty 1, a block every ten minutes, to the last but one of a period. -/
def time (n : Nat) : Nat := 1231006505 + 600 * n

def bits (_ : Nat) : Nat := 0x1d00ffff

theorem plan : Params.Plan .mainnet time bits 2014 where
  time_zero := rfl
  bits_zero := rfl
  easy := by
    have all : targetOf 0x1d00ffff ≤ Params.mainnet.maxAttainableTarget := by decide +kernel
    exact fun _ _ => all
  inside _ _ _ := rfl
  retarget := by
    intro n lt opens
    simp only [PERIOD] at opens
    omega

/-- The last block of the period on either side of a fork: `long` two weeks after
    genesis, `short` one week. -/
def long₁ : Header (List Nat) :=
  Params.mine (Params.mainnet.chain time bits 2014) 3001 (1231006505 + 1209600) 0x1d00ffff

def short₁ : Header (List Nat) :=
  Params.mine (Params.mainnet.chain time bits 2014) 3004 (1231006505 + 604800) 0x1d00ffff

/-- On the long side the retarget changes nothing and two more blocks follow. -/
def long₂ : Header (List Nat) := Params.mine long₁ 3002 (1231006505 + 1210200) 0x1d00ffff

def long₃ : Header (List Nat) := Params.mine long₂ 3003 (1231006505 + 1210800) 0x1d00ffff

/-- On the short side the retarget halves the target, and one block is worth two. -/
def short₂ : Header (List Nat) := Params.mine short₁ 3005 (1231006505 + 605400) 0x1c7fff80

def headers : List (Header (List Nat)) :=
  Params.mainnet.headers time bits 2014 ++ [long₁, long₂, long₃, short₁, short₂]

/-- The fork's parent and what is below it. -/
def trunk : List (Header (List Nat)) := Params.mainnet.branch time bits 2014

theorem trunk_inside : Params.mainnet.network.expectedBits trunk = 0x1d00ffff := by
  obtain ⟨below, eq, length⟩ :=
    Params.branch_eq_cons .mainnet time bits 2014
  rw [trunk, eq, Network.expectedBits_inside, Params.chain_bits plan]
  · rfl
  · rw [List.length_cons, length]
    decide

/-- A block on the trunk ends the period; the next block's bits follow its time. -/
theorem trunk_retarget (merkleRoot time' bits' : Nat) :
    Params.mainnet.network.expectedBits
        (Params.mine (Params.mainnet.chain time bits 2014) merkleRoot time' bits' :: trunk) =
      Params.mainnet.fromNextWorkRequired bits' (time' - 1231006505) := by
  have first := Params.branch_getElem? .mainnet time bits (Nat.le_refl 2014)
  have length := Params.branch_length .mainnet time bits 2014
  refine (Network.expectedBits_retarget ?_ ?_).trans
    (show _ = Params.mainnet.fromNextWorkRequired bits' (time' - Params.mainnet.genesis.time) from rfl)
  · rw [List.length_cons, trunk, length]
    decide
  · rw [show PERIOD - 1 = 2014 + 1 by decide, List.getElem?_cons_succ, trunk, first, Nat.sub_self,
      Params.chain_zero]

theorem inside_next (parent middle : Header (List Nat)) :
    Params.mainnet.network.expectedBits (parent :: middle :: trunk) = parent.bits := by
  have length := Params.branch_length .mainnet time bits 2014
  apply Network.expectedBits_inside
  rw [List.length_cons, List.length_cons, trunk, length]
  decide

/-- The header of the run with a given merkle root. -/
def ofRoot (root : Nat) : Header (List Nat) :=
  if root = 3001 then long₁ else if root = 3002 then long₂ else if root = 3003 then long₃
  else if root = 3004 then short₁ else if root = 3005 then short₂
  else Params.mainnet.chain time bits root

theorem eq_ofRoot {header : Header (List Nat)}
    (member : header ∈ Params.mainnet.genesis :: headers) :
    header = ofRoot header.merkleRoot ∧ header.merkleRoot < 2 ^ 16 := by
  have on_chain : ∀ k, k ≤ 2014 →
      Params.mainnet.chain time bits k = ofRoot (Params.mainnet.chain time bits k).merkleRoot ∧
        (Params.mainnet.chain time bits k).merkleRoot < 2 ^ 16 := by
    intro k le
    rw [Params.chain_merkleRoot, ofRoot]
    refine ⟨?_, by omega⟩
    rw [if_neg (by omega), if_neg (by omega), if_neg (by omega), if_neg (by omega),
      if_neg (by omega)]
  simp only [headers, Params.headers, List.mem_cons, List.mem_append, List.mem_map,
    List.mem_range, List.not_mem_nil, or_false] at member
  rcases member with rfl | ⟨k, lt, rfl⟩ | rfl | rfl | rfl | rfl | rfl
  · have root := on_chain 0 (by omega)
    rw [Params.chain_zero] at root
    exact root
  · exact on_chain (k + 1) lt
  · exact ⟨rfl, show 3001 < 2 ^ 16 by decide⟩
  · exact ⟨rfl, show 3002 < 2 ^ 16 by decide⟩
  · exact ⟨rfl, show 3003 < 2 ^ 16 by decide⟩
  · exact ⟨rfl, show 3004 < 2 ^ 16 by decide⟩
  · exact ⟨rfl, show 3005 < 2 ^ 16 by decide⟩

theorem difficulty_one : targetOf 0x1d00ffff ≤ Params.mainnet.maxAttainableTarget ∧
    Params.toWork (targetOf 0x1d00ffff) = 4295032833 := by
  decide +kernel

theorem difficulty_two : targetOf 0x1c7fff80 ≤ Params.mainnet.maxAttainableTarget ∧
    Params.toWork (targetOf 0x1c7fff80) = 2 * 4295032833 := by
  decide +kernel

theorem work_cons (header : Header (List Nat)) {cost bits : Nat} (rest : List (Header (List Nat)))
    (own : header.bits = bits) (worth : Params.toWork (targetOf bits) = cost) :
    Params.mainnet.network.chainWork (header :: rest) =
      cost + Params.mainnet.network.chainWork rest := by
  have work : Params.mainnet.network.work header = Params.toWork (targetOf header.bits) := rfl
  rw [Network.chainWork_cons, work, own, worth]

theorem fresh_insert {held : Set (List (Header (List Nat)))} (header : Header (List Nat))
    (rest : List (Header (List Nat))) {root : Nat} (other : header.merkleRoot ≠ root)
    (fresh : ∀ n rest, n :: rest ∈ held → n.merkleRoot ≠ root) :
    ∀ n rest', n :: rest' ∈ Insert.insert (header :: rest) held → n.merkleRoot ≠ root := by
  intro n rest' member
  cases member with
  | inl new => rw [(List.cons.inj new).1]; exact other
  | inr old => exact fresh n rest' old

/-- After the run the long side is the tip, and the short side ties with it. -/
theorem built : ∃ held, Params.Built .mainnet
      ((HeaderTree.withCheckpoints Params.mainnet.network []).insertEach Params.mainnet.network
        headers).1 held long₃ (4295032833 + (4295032833 + (4295032833 +
          Params.mainnet.network.chainWork trunk))) ∧
    long₃ :: long₂ :: long₁ :: trunk ∈ held ∧ short₂ :: short₁ :: trunk ∈ held ∧
    ((HeaderTree.withCheckpoints Params.mainnet.network []).insertEach Params.mainnet.network
      headers).1.dirty = true := by
  have chain := (Params.follows_chain plan (Nat.le_refl 2014)).built
  obtain ⟨below, eq, -⟩ :=
    Params.branch_eq_cons .mainnet time bits 2014
  have trunk_eq : trunk = Params.mainnet.chain time bits 2014 :: below := eq
  have trunk_held : trunk ∈ {b | ∃ k ≤ 2014, b = Params.mainnet.branch time bits k} :=
    ⟨2014, le_rfl, rfl⟩
  have fresh : ∀ root, 2014 < root → ∀ n rest,
      n :: rest ∈ {b | ∃ k ≤ 2014, b = Params.mainnet.branch time bits k} → n.merkleRoot ≠ root := by
    intro root high n rest member same
    have le := Params.merkleRoot_le member
    omega
  rw [headers, HeaderTree.insertEach_append_tree]
  generalize ((HeaderTree.withCheckpoints Params.mainnet.network []).insertEach _
    (Params.mainnet.headers time bits 2014)).1 = t at chain ⊢
  iterate 5 rw [HeaderTree.insertEach_cons_tree]
  rw [HeaderTree.insertEach_nil_tree]
  generalize {b | ∃ k ≤ 2014, b = Params.mainnet.branch time bits k} = held
    at chain trunk_held fresh
  have base : Params.mainnet.network.chainWork (Params.mainnet.branch time bits 2014) =
      Params.mainnet.network.chainWork trunk := rfl
  rw [base] at chain
  have inside := trunk_inside
  have fork_held := trunk_held
  rw [trunk_eq] at trunk_held inside
  have B₁ := chain.heavier long₁ rfl trunk_held (fresh 3001 (by omega)) difficulty_one.1
    difficulty_one.2 inside (by rw [← trunk_eq]; omega)
  rw [← trunk_eq] at B₁
  have work₁ := work_cons long₁ trunk rfl difficulty_one.2
  have fresh₁ : ∀ root, 3001 < root → _ := fun root high =>
    fresh_insert long₁ trunk (Nat.ne_of_lt high) (fresh root (by omega))
  have B₂ := B₁.heavier long₂ rfl (Set.mem_insert _ _) (fresh₁ 3002 (by omega))
    difficulty_one.1 difficulty_one.2 ((trunk_retarget _ _ _).trans (by decide +kernel))
    (by rw [work₁]; omega)
  have work₂ := work_cons long₂ (long₁ :: trunk) rfl difficulty_one.2
  have fresh₂ : ∀ root, 3002 < root → _ := fun root high =>
    fresh_insert long₂ (long₁ :: trunk) (Nat.ne_of_lt high)
      (fresh₁ root (by omega))
  have B₃ := B₂.heavier long₃ rfl (Set.mem_insert _ _) (fresh₂ 3003 (by omega))
    difficulty_one.1 difficulty_one.2 (inside_next long₂ long₁) (by rw [work₂]; omega)
  have fresh₃ : ∀ root, 3003 < root → _ := fun root high =>
    fresh_insert long₃ (long₂ :: long₁ :: trunk) (Nat.ne_of_lt high)
      (fresh₂ root (by omega))
  rw [work₂, work₁] at B₃
  obtain ⟨B₄, -⟩ := B₃.lighter short₁ rfl (.inr (.inr (.inr trunk_held)))
    (fresh₃ 3004 (by omega)) difficulty_one.1 difficulty_one.2 inside (by rw [← trunk_eq]; omega)
  rw [← trunk_eq] at B₄
  have fresh₄ : ∀ root, 3004 < root → _ := fun root high =>
    fresh_insert short₁ trunk (Nat.ne_of_lt high) (fresh₃ root (by omega))
  have work₄ := work_cons short₁ trunk rfl difficulty_one.2
  obtain ⟨B₅, dirty⟩ := B₄.lighter short₂ rfl (Set.mem_insert _ _)
    (fresh₄ 3005 (by omega)) difficulty_two.1 difficulty_two.2
    ((trunk_retarget _ _ _).trans (by decide +kernel)) (by rw [work₄]; omega)
  exact ⟨_, B₅, .inr (.inr (.inl rfl)), .inl rfl, dirty⟩

theorem run_ties :
    (HeaderTree.run Params.mainnet.network [] [headers]).dirty = true ∧
      ¬ NoShorterTie (HeaderTree.run Params.mainnet.network [] [headers]) := by
  obtain ⟨held, B, long_held, short_held, dirty⟩ := built
  obtain ⟨same_dirty, same_ties⟩ := insertBatch_noShorterTie Params.mainnet.network
    (HeaderTree.withCheckpoints Params.mainnet.network []) headers
  rw [HeaderTree.run_singleton, same_dirty, same_ties]
  generalize ((HeaderTree.withCheckpoints Params.mainnet.network []).insertEach
    Params.mainnet.network headers).1 = t at B dirty ⊢
  refine ⟨dirty, fun no_shorter => ?_⟩
  obtain ⟨n, rest, split, -, height, -⟩ := (B.represents.atTip_iff long_held).mpr B.tip.symm
  obtain ⟨-, rfl⟩ := List.cons.inj split
  have work₁ := work_cons short₁ trunk rfl difficulty_one.2
  have work₂ := work_cons short₂ (short₁ :: trunk) rfl difficulty_two.2
  rw [work₁] at work₂
  have tied := no_shorter.le B.represents short_held (by rw [work₂, B.work]; omega)
  simp only [← height, List.length_cons] at tied
  omega

/-- A tree that is saved on one branch and comes back on another. -/
theorem saved_tip_lost :
    HeaderTree.RoundTrips (recordCodec (Params.mainnet.genesis :: headers))
        (HeaderTree.run Params.mainnet.network [] [headers]).fileHeaders ∧
      (HeaderTree.run Params.mainnet.network [] [headers]).dirty = true ∧
      ¬ SurvivesRestart (recordCodec (Params.mainnet.genesis :: headers)) Params.mainnet.network []
        (HeaderTree.run Params.mainnet.network [] [headers]) := by
  obtain ⟨dirty, tied⟩ := run_ties
  obtain ⟨held, S⟩ := run_synced Params.mainnet.network [] (by simp) [headers]
  have offered : ∀ header ∈ (HeaderTree.run Params.mainnet.network [] [headers]).fileHeaders,
      header ∈ Params.mainnet.genesis :: headers := by
    intro header written
    obtain ⟨rest, member⟩ := S.toRepresents.mem_fileHeaders.mp written
    have from_batch := run_offered (by simp) [headers] (S.toMapOf.lookup member)
    rw [List.flatten_singleton] at from_batch
    exact List.mem_cons.mpr from_batch
  have sorted := run_checkpoints Params.mainnet.network [] [headers]
  generalize HeaderTree.run Params.mainnet.network [] [headers] = t at S dirty tied offered sorted ⊢
  have sound : HeaderTree.RoundTrips (recordCodec (Params.mainnet.genesis :: headers))
      t.fileHeaders := by
    refine recordCodec_roundTrips offered (fun header member => (eq_ofRoot member).2) ?_
    intro header member header' member' same
    rw [(eq_ofRoot member).1, (eq_ofRoot member').1, same]
  refine ⟨sound, dirty, fun survives => tied ?_⟩
  obtain ⟨bytes, loaded, written, read, same⟩ := survives.reload
  have saved : (t.save (recordCodec (Params.mainnet.genesis :: headers)) true).2 =
      .written (t.fileBytes (recordCodec (Params.mainnet.genesis :: headers))) := by
    simp [HeaderTree.save, dirty]
  rw [saved] at written
  cases written
  rw [HeaderTree.fileBytes, HeaderTree.load_flatMap sound] at read
  cases read
  exact (S.sameTree_reload_iff (by simp) sorted).mp same

end Tie

end P2PObserver
