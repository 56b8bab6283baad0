import P2PObserver.HeaderTree.Invariant

/-! # Mined chains

A chain mined on genesis to a plan of times and bits, of any length. The tree follows
it header by header, so a run over thousands of headers is an induction rather than an
evaluation.
-/

namespace P2PObserver

namespace Represents

variable {H : Type} [LinearOrder H] {net : Network H} {t : HeaderTree H}
  {held : Set (List (Header H))} {header p : Header H} {rest : List (Header H)}

/-- A header that may be placed is accepted. -/
theorem insertInner_placeable (R : Represents net t held) (ok : Placeable net t held header p rest) :
    t.insertInner net header = (t.accept net header (entryOf net p rest), .ok true) := by
  have outcome := R.insertInner_outcome header
  generalize eq : t.insertInner net header = step at outcome
  obtain ⟨t', result⟩ := step
  cases outcome with
  | known known => exact absurd known (ok.fresh _)
  | unplaced _ missing => exact absurd ok.link.symm (missing p rest ok.parent)
  | refused _ parent link said =>
      have same := R.eq_of_hash parent (R.toMapOf.branch ok.parent) (link.symm.trans ok.link)
      rw [same, (net.verdict_ok_iff R.heights_nodup).mpr ⟨ok.sound, ok.above⟩] at said
      cases said
  | accepted ok' =>
      have same := R.eq_of_hash ok'.parent (R.toMapOf.branch ok.parent) (ok'.link.symm.trans ok.link)
      obtain ⟨rfl, rfl⟩ := List.cons.inj same
      rfl

/-- Without checkpoints, accepting a sound header adds its branch. -/
theorem insertInner_plain (R : Represents net t held) (plain : t.checkpoints = [])
    (fresh : ∀ below, header :: below ∉ held) (parent : p :: rest ∈ held)
    (link : header.prevBlockhash = net.blockHash p) (off : header ≠ net.genesis)
    (sound : Sound net [] header (p :: rest)) :
    Represents net (t.insertInner net header).1 (Insert.insert (header :: p :: rest) held) ∧
      HeaderTree.SameRefusals t (t.insertInner net header).1 ∧
      (t.insertInner net header).1.dirty = true ∧
      (t.insertInner net header).1.tip =
        if t.tipWork < net.chainWork (header :: p :: rest) then net.blockHash header
        else t.tip := by
  have none_reached : ∀ b, ¬ IsCheckpoint net t.checkpoints b := by
    intro b isCheckpoint
    cases b with
    | nil => exact isCheckpoint
    | cons n below =>
        obtain ⟨c, listed, -⟩ := isCheckpoint
        simp [plain] at listed
  have ok : Placeable net t held header p rest := by
    refine ⟨fresh, parent, link, off, plain ▸ sound, ?_⟩
    intro r reached
    obtain ⟨c, -, isCheckpoint, -⟩ := R.reached r reached
    exact absurd isCheckpoint (none_reached c)
  rw [R.insertInner_placeable ok]
  obtain ⟨R', -, -, tip⟩ := R.accept_plain ok (none_reached _)
  exact ⟨R', HeaderTree.accept_sameRefusals net t header _, rfl, tip⟩

end Represents

namespace Params

variable (params : Params) (time bits : Nat → Nat)

/-- A chain on genesis; block `n` has the time and bits the plan has for height `n`. -/
def chain : Nat → Header (List Nat)
  | 0 => params.genesis
  | n + 1 => mine (chain n) (n + 1) (time (n + 1)) (bits (n + 1))

/-- The chain down from height `n`, newest first. -/
def branch : Nat → List (Header (List Nat))
  | 0 => [params.genesis]
  | n + 1 => params.chain time bits (n + 1) :: branch n

/-- The chain's headers from height 1 to `n`. -/
def headers (n : Nat) : List (Header (List Nat)) :=
  (List.range n).map fun k => params.chain time bits (k + 1)

/-- The plan follows the network's rules up to a height. -/
structure Plan (top : Nat) : Prop where
  time_zero : time 0 = params.genesisTime
  bits_zero : bits 0 = params.genesisBits
  easy : ∀ n, n < top → targetOf (bits (n + 1)) ≤ params.maxAttainableTarget
  inside : ∀ n, n < top → (n + 1) % PERIOD ≠ 0 → bits (n + 1) = bits n
  retarget : ∀ n, n < top → (n + 1) % PERIOD = 0 →
    bits (n + 1) = params.fromNextWorkRequired (bits n) (time n - time (n + 1 - PERIOD))

variable {params time bits}

@[simp]
theorem chain_zero : params.chain time bits 0 = params.genesis := rfl

@[simp]
theorem branch_zero : params.branch time bits 0 = [params.genesis] := rfl

variable (params time bits) in
theorem branch_eq_cons (n : Nat) : ∃ below, params.branch time bits n =
    params.chain time bits n :: below ∧ below.length = n := by
  induction n with
  | zero => exact ⟨[], rfl, rfl⟩
  | succ n ih =>
      obtain ⟨below, eq, length⟩ := ih
      exact ⟨params.branch time bits n, rfl, by simp [eq, length]⟩

variable (params time bits) in
theorem branch_length (n : Nat) : (params.branch time bits n).length = n + 1 := by
  obtain ⟨below, eq, length⟩ := branch_eq_cons params time bits n
  simp [eq, length]

variable (params time bits) in
theorem branch_getElem? {n k : Nat} (le : k ≤ n) :
    (params.branch time bits n)[k]? = some (params.chain time bits (n - k)) := by
  induction n generalizing k with
  | zero =>
      obtain rfl := Nat.le_zero.mp le
      rfl
  | succ n ih =>
      cases k with
      | zero => rfl
      | succ k =>
          rw [branch, List.getElem?_cons_succ, ih (Nat.le_of_succ_le_succ le)]
          congr 2
          omega

theorem mine_ne_genesis (parent : Header (List Nat)) (merkleRoot time bits : Nat) :
    mine parent merkleRoot time bits ≠ params.genesis := by
  intro eq
  have := congrArg Header.prevBlockhash eq
  simp [mine, genesis, blockHash] at this

theorem chain_bits {top : Nat} (plan : Plan params time bits top) (n : Nat) :
    (params.chain time bits n).bits = bits n := by
  cases n with
  | zero => exact plan.bits_zero.symm
  | succ n => rfl

theorem chain_time {top : Nat} (plan : Plan params time bits top) (n : Nat) :
    (params.chain time bits n).time = time n := by
  cases n with
  | zero => exact plan.time_zero.symm
  | succ n => rfl

theorem chain_merkleRoot (n : Nat) : (params.chain time bits n).merkleRoot = n := by
  cases n <;> rfl

/-- Above height `n` the chain asks for the bits the plan has. -/
theorem expectedBits_branch {top : Nat} (plan : Plan params time bits top) {n : Nat}
    (lt : n < top) : params.network.expectedBits (params.branch time bits n) = bits (n + 1) := by
  have length := branch_length params time bits n
  have positions : ∀ k, k ≤ n →
      (params.branch time bits n)[k]? = some (params.chain time bits (n - k)) :=
    fun k le => branch_getElem? params time bits le
  obtain ⟨below, eq, -⟩ := branch_eq_cons params time bits n
  rw [eq] at length positions ⊢
  by_cases opens : (n + 1) % PERIOD = 0
  · have enough := Nat.le_of_dvd (Nat.succ_pos n) (Nat.dvd_of_mod_eq_zero opens)
    have first := positions (PERIOD - 1) (by simp only [PERIOD] at enough ⊢; omega)
    have place : n - (PERIOD - 1) = n + 1 - PERIOD := by
      simp only [PERIOD] at enough ⊢
      omega
    rw [Network.expectedBits_retarget (by rw [length]; exact opens) first, plan.retarget n lt opens,
      place]
    simp only [network, chain_bits plan, chain_time plan]
  · rw [Network.expectedBits_inside (by rw [length]; exact opens), plan.inside n lt opens,
      chain_bits plan]

/-- The rules on a header mined with the bits its place asks for. -/
theorem sound_mine {parent : Header (List Nat)} {merkleRoot time' bits' : Nat}
    {below : List (Header (List Nat))} (easy : targetOf bits' ≤ params.maxAttainableTarget)
    (asked : params.network.expectedBits below = bits') :
    Sound params.network [] (mine parent merkleRoot time' bits') below where
  target_le := easy
  checkpoint := by
    intro c listed
    cases listed
  pow := by
    rw [asked]
    simp [network, mine]

/-- The tree after a mined chain: it holds the chain, nothing else, and no refusals. -/
structure Follows (params : Params) (time bits : Nat → Nat) (n : Nat)
    (t : HeaderTree (List Nat)) : Prop where
  represents : Represents params.network t {b | ∃ k ≤ n, b = params.branch time bits k}
  checkpoints : t.checkpoints = []
  rejected : t.rejected = ∅
  rejectedOrder : t.rejectedOrder = ∅
  rejectedSeq : t.rejectedSeq = 0
  tip : t.tip = params.network.blockHash (params.chain time bits n)
  tipWork : t.tipWork = params.network.chainWork (params.branch time bits n)

/-- The loop of `insert_batch` follows a mined chain to its end. -/
theorem follows_chain {top : Nat} (plan : Plan params time bits top) {n : Nat} (le : n ≤ top) :
    Follows params time bits n
      ((HeaderTree.withCheckpoints params.network []).insertEach params.network
        (params.headers time bits n)).1 := by
  induction n with
  | zero =>
      have start := withCheckpoints_synced params.network [] (by simp)
      have only : ({b | ∃ k ≤ 0, b = params.branch time bits k} :
          Set (List (Header (List Nat)))) = {[params.network.genesis]} := by
        ext b
        simp [branch, network]
      refine ⟨only ▸ start.toRepresents, rfl, rfl, rfl, rfl, rfl, ?_⟩
      simp [HeaderTree.insertEach, headers, HeaderTree.withCheckpoints, HeaderTree.noteCheckpoint,
        HeaderTree.new, Network.chainWork, branch, network]
  | succ n ih =>
      have before := ih (Nat.le_of_succ_le le)
      obtain ⟨below, eq, length⟩ :=
        branch_eq_cons params time bits n
      have sound : Sound params.network [] (params.chain time bits (n + 1))
          (params.branch time bits n) :=
        sound_mine (plan.easy n le) (expectedBits_branch plan le)
      have fresh : ∀ rest, params.chain time bits (n + 1) :: rest ∉
          {b | ∃ k ≤ n, b = params.branch time bits k} := by
        intro rest held
        obtain ⟨k, le, eq⟩ := held
        obtain ⟨below', eq', -⟩ :=
          branch_eq_cons params time bits k
        have same := congrArg Header.merkleRoot (List.cons.inj (eq.trans eq')).1
        rw [chain_merkleRoot, chain_merkleRoot] at same
        omega
      have held : params.branch time bits n ∈ {b | ∃ k ≤ n, b = params.branch time bits k} :=
        ⟨n, le_rfl, rfl⟩
      rw [headers, List.range_succ, List.map_append, HeaderTree.insertEach_append_tree,
        ← headers, List.map_singleton, HeaderTree.insertEach_cons_tree, HeaderTree.insertEach]
      rw [eq] at sound held
      obtain ⟨R, same, -, tip⟩ := before.represents.insertInner_plain before.checkpoints fresh held rfl
        (mine_ne_genesis _ _ _ _) sound
      rw [← eq] at R tip
      have grown : Insert.insert (params.branch time bits (n + 1))
          {b | ∃ k ≤ n, b = params.branch time bits k} =
            {b | ∃ k ≤ n + 1, b = params.branch time bits k} := by
        ext b
        simp only [Set.mem_insert_iff, Set.mem_ofPred_eq]
        constructor
        · intro member
          cases member with
          | inl new => exact ⟨n + 1, le_rfl, new⟩
          | inr old =>
              obtain ⟨k, le, eq⟩ := old
              exact ⟨k, by omega, eq⟩
        · intro member
          obtain ⟨k, le, eq⟩ := member
          cases Nat.le_succ_iff.mp le with
          | inl low => exact .inr ⟨k, low, eq⟩
          | inr last =>
              subst last
              exact .inl eq
      have heavier : (params.network.chainWork (params.branch time bits n)) <
          params.network.chainWork (params.branch time bits (n + 1)) :=
        Network.chainWork_lt_of_suffix (List.suffix_cons _ _) (by simp [branch])
      have moved := tip.trans (if_pos (before.tipWork ▸ heavier))
      obtain ⟨-, -, -, -, -, work⟩ := (R.atTip_iff (Set.mem_insert _ _)).mpr moved.symm
      exact
        { represents := grown ▸ R
          checkpoints := same.checkpoints.trans before.checkpoints
          rejected := same.rejected.trans before.rejected
          rejectedOrder := same.rejectedOrder.trans before.rejectedOrder
          rejectedSeq := same.rejectedSeq.trans before.rejectedSeq
          tip := moved
          tipWork := work.symm }

/-- So does `insert_batch` itself. -/
theorem run_follows {top : Nat} (plan : Plan params time bits top) {n : Nat} (le : n ≤ top) :
    Follows params time bits n
      (HeaderTree.run params.network [] [params.headers time bits n]) := by
  obtain ⟨bestChain, eq⟩ := HeaderTree.insertBatch_eq params.network
    (HeaderTree.withCheckpoints params.network []) (params.headers time bits n)
  obtain ⟨R, checkpoints, rejected, rejectedOrder, rejectedSeq, tip, work⟩ := follows_chain plan le
  rw [HeaderTree.run_singleton, eq]
  exact ⟨⟨R.toMapOf, R.heights_nodup, R.unreached, R.reached, R.tip, R.heaviest⟩, checkpoints,
    rejected, rejectedOrder, rejectedSeq, tip, work⟩

/-- A tree without checkpoints, its tip and the work on it. -/
structure Built (params : Params) (t : HeaderTree (List Nat)) (held : Set (List (Header (List Nat))))
    (tip : Header (List Nat)) (work : Nat) : Prop where
  represents : Represents params.network t held
  checkpoints : t.checkpoints = []
  tip : t.tip = blockHash tip
  work : t.tipWork = work

theorem Follows.built {n : Nat} {t : HeaderTree (List Nat)} (chain : Follows params time bits n t) :
    Built params t {b | ∃ k ≤ n, b = params.branch time bits k} (params.chain time bits n)
      (params.network.chainWork (params.branch time bits n)) :=
  ⟨chain.represents, chain.checkpoints, chain.tip, chain.tipWork⟩

variable {t : HeaderTree (List Nat)} {held : Set (List (Header (List Nat)))}
  {tip header parent : Header (List Nat)} {below : List (Header (List Nat))}
  {work merkleRoot time' bits' cost : Nat}

/-- Mining one more block, with the bits its place asks for, whether or not it becomes
    the tip. -/
theorem Built.extend (B : Built params t held tip work)
    (made : header = Params.mine parent merkleRoot time' bits') (parent_held : parent :: below ∈ held)
    (fresh : ∀ n rest, n :: rest ∈ held → n.merkleRoot ≠ merkleRoot)
    (easy : targetOf bits' ≤ params.maxAttainableTarget) (worth : toWork (targetOf bits') = cost)
    (asked : params.network.expectedBits (parent :: below) = bits') :
    params.network.chainWork (header :: parent :: below) =
        cost + params.network.chainWork (parent :: below) ∧
      Represents params.network (t.insertInner params.network header).1
        (Insert.insert (header :: parent :: below) held) ∧
      (t.insertInner params.network header).1.checkpoints = [] ∧
      (t.insertInner params.network header).1.dirty = true ∧
      (t.insertInner params.network header).1.tip =
        if work < cost + params.network.chainWork (parent :: below) then blockHash header
        else blockHash tip := by
  have new : ∀ rest, header :: rest ∉ held := by
    intro rest member
    rw [made] at member
    exact fresh _ rest member rfl
  have sum : params.network.chainWork (header :: parent :: below) =
      cost + params.network.chainWork (parent :: below) := by
    rw [params.network.chainWork_cons, ← worth, made]
    rfl
  have off : header ≠ params.network.genesis := by
    rw [made]
    exact mine_ne_genesis _ _ _ _
  have link : header.prevBlockhash = params.network.blockHash parent := by
    rw [made]
    rfl
  have sound : Sound params.network [] header (parent :: below) := by
    rw [made]
    exact sound_mine easy asked
  obtain ⟨R, same, dirty, moved⟩ :=
    B.represents.insertInner_plain B.checkpoints new parent_held link off sound
  rw [sum, B.work, B.tip] at moved
  exact ⟨sum, R, same.checkpoints.trans B.checkpoints, dirty, moved⟩

/-- A heavier block becomes the tip. -/
theorem Built.heavier (B : Built params t held tip work) (header : Header (List Nat))
    (made : header = Params.mine parent merkleRoot time' bits') (parent_held : parent :: below ∈ held)
    (fresh : ∀ n rest, n :: rest ∈ held → n.merkleRoot ≠ merkleRoot)
    (easy : targetOf bits' ≤ params.maxAttainableTarget) (worth : toWork (targetOf bits') = cost)
    (asked : params.network.expectedBits (parent :: below) = bits')
    (heavier : work < cost + params.network.chainWork (parent :: below)) :
    Built params (t.insertInner params.network header).1
      (Insert.insert (header :: parent :: below) held) header
      (cost + params.network.chainWork (parent :: below)) := by
  obtain ⟨sum, R, checkpoints, -, moved⟩ := B.extend made parent_held fresh easy worth asked
  rw [if_pos heavier] at moved
  obtain ⟨-, -, -, -, -, top⟩ := (R.atTip_iff (Set.mem_insert _ _)).mpr moved.symm
  exact ⟨R, checkpoints, moved, top.symm.trans sum⟩

/-- A block no heavier leaves the tip alone. -/
theorem Built.lighter (B : Built params t held tip work) (header : Header (List Nat))
    (made : header = Params.mine parent merkleRoot time' bits') (parent_held : parent :: below ∈ held)
    (fresh : ∀ n rest, n :: rest ∈ held → n.merkleRoot ≠ merkleRoot)
    (easy : targetOf bits' ≤ params.maxAttainableTarget) (worth : toWork (targetOf bits') = cost)
    (asked : params.network.expectedBits (parent :: below) = bits')
    (lighter : cost + params.network.chainWork (parent :: below) ≤ work) :
    Built params (t.insertInner params.network header).1
        (Insert.insert (header :: parent :: below) held) tip work ∧
      (t.insertInner params.network header).1.dirty = true := by
  obtain ⟨-, R, checkpoints, dirty, moved⟩ := B.extend made parent_held fresh easy worth asked
  rw [if_neg (Nat.not_lt.mpr lighter)] at moved
  obtain ⟨b, hb, at_tip⟩ := B.represents.tip
  obtain ⟨n, rest, rfl, key, -, top⟩ := at_tip
  have same := (R.atTip_iff (.inr hb)).mpr (key.trans (B.tip.trans moved.symm))
  obtain ⟨-, -, -, -, -, top'⟩ := same
  exact ⟨⟨R, checkpoints, moved, top'.symm.trans (top.trans B.work)⟩, dirty⟩

/-- The merkle roots of a followed chain are its heights. -/
theorem merkleRoot_le {top : Nat} {n : Header (List Nat)} {rest : List (Header (List Nat))}
    (member : n :: rest ∈ {b | ∃ k ≤ top, b = params.branch time bits k}) :
    n.merkleRoot ≤ top := by
  obtain ⟨k, le, eq⟩ := member
  obtain ⟨below, eq', -⟩ := branch_eq_cons params time bits k
  have same := congrArg Header.merkleRoot (List.cons.inj (eq.trans eq')).1
  rw [chain_merkleRoot] at same
  omega

-- Unfolding a chain of thousands of blocks by accident would not end.
attribute [irreducible] chain branch headers

end Params

end P2PObserver
