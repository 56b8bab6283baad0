import P2PObserver.HeaderTree.Mined

/-! # The refusal memory

A refusal that validation gave is for good: the header's branch breaks a rule, or it
lies at or below a reached checkpoint. A refusal for a weaker chain is a guess made
before the header could be placed, and inheriting it guesses again.
-/

namespace P2PObserver

variable {H : Type} [LinearOrder H] {net : Network H}

namespace HeaderTree

/-! ## What the memory holds -/

theorem forgetOldest_lookup {fuel : Nat} {t : HeaderTree H} {hash : H}
    {refusal : HeaderError × Nat} (kept : (t.forgetOldest fuel).rejected.lookup hash = some refusal) :
    t.rejected.lookup hash = some refusal := by
  induction fuel generalizing t with
  | zero => exact kept
  | succ fuel ih =>
      simp only [forgetOldest] at kept
      split at kept
      · split at kept
        · exact kept
        · split at kept
          · exact kept
          · exact (HashMap.lookup_erase_iff.mp (ih kept)).2
      · exact kept

/-- Remembering a refusal adds at most that refusal. -/
theorem rejectionOf_rememberRejected {t : HeaderTree H} {hash hash' : H}
    {reason reason' : HeaderError}
    (remembered : (t.rememberRejected hash reason).rejectionOf hash' = some reason') :
    t.rejectionOf hash' = some reason' ∨ hash' = hash ∧ reason' = reason := by
  simp only [rejectionOf, Option.map_eq_some_iff] at remembered ⊢
  obtain ⟨refusal, found, rfl⟩ := remembered
  simp only [rememberRejected] at found
  split at found
  · exact .inl ⟨refusal, found, rfl⟩
  · have added := forgetOldest_lookup found
    simp only [nextRejectedSeq, HashMap.lookup_insert_iff] at added
    cases added with
    | inl new =>
        obtain ⟨same, rfl⟩ := new
        exact .inr ⟨same, rfl⟩
    | inr old => exact .inl ⟨refusal, old.2, rfl⟩

/-- With room for one more, remembering a new refusal forgets none. -/
theorem rememberRejected_of_room {t : HeaderTree H} {hash : H} {reason : HeaderError}
    (new : hash ∉ t.rejected) (room : HashMap.size t.rejected < REJECTED_REMEMBERED) :
    (t.rememberRejected hash reason).rejected =
      t.rejected.insert hash (reason, t.nextRejectedSeq.1) := by
  have size : HashMap.size (t.rejected.insert hash (reason, t.nextRejectedSeq.1)) ≤
      REJECTED_REMEMBERED := by
    rw [HashMap.size, AList.entries_insert_of_notMem new]
    exact room
  have kept : ∀ fuel, ∀ t' : HeaderTree H, HashMap.size t'.rejected ≤ REJECTED_REMEMBERED →
      (t'.forgetOldest fuel).rejected = t'.rejected := by
    intro fuel t' le
    cases fuel with
    | zero => rfl
    | succ fuel => rw [forgetOldest, if_neg (Nat.not_lt.mpr le)]
  rw [rememberRejected, if_neg new]
  exact kept _ _ size

/-- Touching a refusal changes its place in the queue and nothing else. -/
theorem rejectionOf_touchRejected (t : HeaderTree H) (hash hash' : H) :
    (t.touchRejected hash).rejectionOf hash' = t.rejectionOf hash' := by
  simp only [touchRejected, nextRejectedSeq]
  cases found : t.rejected.lookup hash with
  | none => rfl
  | some refusal =>
      simp only [rejectionOf]
      by_cases same : hash' = hash
      · subst same
        simp [AList.lookup_insert, found]
      · rw [AList.lookup_insert_ne same]

end HeaderTree

/-! ## Refusals for good -/

/-- No admissible branch to this block, or one with a gap at or below the reached
    checkpoint, where nothing is accepted any more. -/
def Barred (net : Network H) (t : HeaderTree H) (held : Set (List (Header H))) (hash : H) : Prop :=
  ∀ n rest, net.blockHash n = hash → Admissible net t.checkpoints (n :: rest) →
    ∃ gap, gap <:+ n :: rest ∧ gap ≠ [] ∧ gap ∉ held ∧
      ∃ r, t.reachedCheckpoint = some r ∧ gap.length ≤ r + 1

namespace Barred

variable {t : HeaderTree H} {held : Set (List (Header H))} {hash : H}

omit [LinearOrder H] in
theorem of_sameChain {t' : HeaderTree H} (h : Barred net t held hash)
    (same : HeaderTree.SameChain t t') : Barred net t' held hash := by
  simp only [Barred, same.checkpoints, same.reachedCheckpoint]
  exact h

/-- A barred block is not held. -/
theorem not_mem (h : Barred net t held hash) (R : Represents net t held) : hash ∉ t.headers := by
  intro member
  obtain ⟨n, rest, held, key⟩ := R.mem_iff.mp member
  obtain ⟨gap, sub, nonempty, missing, -⟩ := h n rest key (R.admissible _ held)
  exact missing (R.suffix_mem held sub nonempty)

/-- Accepting a header fills no gap below the reached checkpoint. -/
theorem accept {header p : Header H} {rest : List (Header H)} (h : Barred net t held hash)
    (R : Represents net t held) (ok : Placeable net t held header p rest) :
    Barred net (t.accept net header (entryOf net p rest))
      (growWith net t.checkpoints held (header :: p :: rest)) hash := by
  have same := (HeaderTree.accept_sameRefusals net t header (entryOf net p rest)).checkpoints
  intro n below key admissible
  rw [same] at admissible
  obtain ⟨gap, sub, nonempty, missing, r, reached, low⟩ := h n below key admissible
  have above := ok.above r reached
  refine ⟨gap, sub, nonempty, ?_, ?_⟩
  · intro held
    cases held.1 with
    | inl old => exact missing old
    | inr new =>
        rw [new] at low
        simp only [List.length_cons] at low above
        omega
  · by_cases isCheckpoint : IsCheckpoint net t.checkpoints (header :: p :: rest)
    · exact ⟨_, (R.accept_reached ok).1 isCheckpoint, by omega⟩
    · exact ⟨r, ((R.accept_reached ok).2 isCheckpoint).trans reached, low⟩

omit [LinearOrder H] in
/-- What builds on a barred block is barred. -/
theorem child {header : Header H} (h : Barred net t held header.prevBlockhash)
    (off : header ≠ net.genesis) : Barred net t held (net.blockHash header) := by
  intro n rest key admissible
  obtain rfl := net.blockHash_injective key
  cases rest with
  | nil =>
      cases admissible.isBranch
      exact absurd rfl off
  | cons p rest =>
      have link : n.prevBlockhash = net.blockHash p := admissible.isBranch.link
      have below := admissible.suffix (List.suffix_cons n (p :: rest)) (by simp)
      obtain ⟨gap, sub, more⟩ := h p rest link.symm below
      exact ⟨gap, sub.trans (List.suffix_cons n (p :: rest)), more⟩

/-- What validation refuses is barred. -/
theorem of_verdict {header p : Header H} {rest : List (Header H)} {reason : HeaderError}
    (R : Represents net t held) (fresh : ∀ below, header :: below ∉ held)
    (parent : p :: rest ∈ held) (link : header.prevBlockhash = net.blockHash p)
    (refused : net.verdict t.checkpoints t.reachedCheckpoint header (p :: rest) = .error reason) :
    Barred net t held (net.blockHash header) := by
  intro n below key admissible
  obtain rfl := net.blockHash_injective key
  cases below with
  | nil =>
      cases admissible.isBranch
      exact absurd R.root_mem (fresh [])
  | cons q below =>
      have link' : n.prevBlockhash = net.blockHash q := admissible.isBranch.link
      have own := admissible.isBranch.tail (by simp)
      obtain same := R.eq_of_hash parent own (link.symm.trans link')
      have ok := admissible.sound n (q :: below) List.suffix_rfl (by simp)
      rw [← same] at ok ⊢
      refine ⟨n :: p :: rest, List.suffix_rfl, by simp, fresh _, ?_⟩
      by_contra above
      have accepted : net.verdict t.checkpoints t.reachedCheckpoint n (p :: rest) = .ok () := by
        rw [net.verdict_ok_iff R.heights_nodup]
        refine ⟨ok, fun r reached => ?_⟩
        by_contra le
        exact above ⟨r, reached, by simp only [List.length_cons] at le ⊢; omega⟩
      rw [refused] at accepted
      cases accepted

end Barred

/-! ## Accepted and refused apart -/

/-- Every remembered refusal is of a block the tree does not hold: for good, unless it
    is the guess about weaker chains. -/
def RefusalsApart (net : Network H) (t : HeaderTree H) (held : Set (List (Header H))) : Prop :=
  ∀ hash reason, t.rejectionOf hash = some reason →
    Barred net t held hash ∨ reason = .weakerChain ∧ hash ∉ t.headers

/-- The header is not one the tree took for a weaker chain's and would now accept. -/
def GuessStands (net : Network H) (t : HeaderTree H) (header : Header H) : Prop :=
  t.rejectionOf (net.blockHash header) = some .weakerChain → t.accepts net header = false

instance (net : Network H) (t : HeaderTree H) (header : Header H) :
    Decidable (GuessStands net t header) :=
  inferInstanceAs (Decidable (_ → _))

namespace RefusalsApart

variable {t : HeaderTree H} {held : Set (List (Header H))}

theorem of_sameChain {t' : HeaderTree H} (same : HeaderTree.SameChain t t')
    (A : ∀ hash reason, t'.rejectionOf hash = some reason →
      Barred net t held hash ∨ reason = .weakerChain ∧ hash ∉ t.headers) :
    RefusalsApart net t' held := by
  intro hash reason remembered
  rw [same.headers]
  cases A hash reason remembered with
  | inl barred => exact .inl (barred.of_sameChain same)
  | inr guess => exact .inr guess

theorem insertInner (A : RefusalsApart net t held) (R : Represents net t held) {header : Header H}
    (stands : GuessStands net t header) :
    ∃ held', Represents net (t.insertInner net header).1 held' ∧
      RefusalsApart net (t.insertInner net header).1 held' := by
  have outcome := R.insertInner_outcome header
  generalize (t.insertInner net header).1 = t', (t.insertInner net header).2 = result at outcome ⊢
  cases outcome with
  | known => exact ⟨held, R, A⟩
  | unplaced fresh missing =>
      have same := HeaderTree.refuseUnplaced_sameChain net t header
      refine ⟨held, R.of_sameChain same, of_sameChain same ?_⟩
      have absent : net.blockHash header ∉ t.headers := by
        intro member
        obtain ⟨n, rest, held, key⟩ := R.mem_iff.mp member
        obtain rfl := net.blockHash_injective key
        exact fresh rest held
      have off : header ≠ net.genesis := by
        intro root
        exact fresh [] (root ▸ R.root_mem)
      intro hash reason remembered
      simp only [HeaderTree.refuseUnplaced] at remembered
      split at remembered
      · rename_i inherited parent_refused
        cases HeaderTree.rejectionOf_rememberRejected remembered with
        | inl before =>
            rw [HeaderTree.rejectionOf_touchRejected] at before
            exact A hash reason before
        | inr new =>
            obtain ⟨rfl, rfl⟩ := new
            cases A _ _ parent_refused with
            | inl barred => exact .inl (barred.child off)
            | inr guess => exact .inr ⟨guess.1, absent⟩
      · split at remembered
        · cases HeaderTree.rejectionOf_rememberRejected remembered with
          | inl before => exact A hash reason before
          | inr new =>
              obtain ⟨rfl, rfl⟩ := new
              exact .inr ⟨rfl, absent⟩
        · exact A hash reason remembered
  | refused fresh parent link said =>
      have same := HeaderTree.rememberRejected_sameChain t (net.blockHash header)
      refine ⟨held, R.of_sameChain (same _), of_sameChain (same _) ?_⟩
      intro hash reason remembered
      cases HeaderTree.rejectionOf_rememberRejected remembered with
      | inl before => exact A hash reason before
      | inr new =>
          obtain ⟨rfl, -⟩ := new
          exact .inl (.of_verdict R fresh parent link said)
  | accepted ok =>
      rename_i p rest
      have same := HeaderTree.accept_sameRefusals net t header (entryOf net p rest)
      refine ⟨_, R.accept ok, ?_⟩
      intro hash reason remembered
      rw [HeaderTree.rejectionOf, same.rejected] at remembered
      cases A hash reason remembered with
      | inl barred => exact .inl (barred.accept R ok)
      | inr guess =>
          obtain ⟨rfl, absent⟩ := guess
          have accepts := (R.accepts_iff ok.parent ok.link).mpr ⟨ok.sound, ok.above⟩
          refine .inr ⟨rfl, fun member => ?_⟩
          obtain ⟨n, below, held', rfl⟩ := (R.accept ok).mem_iff.mp member
          cases held'.1 with
          | inl old => exact absent (R.mem_iff.mpr ⟨n, below, old, rfl⟩)
          | inr new =>
              obtain ⟨rfl, -⟩ := List.cons.inj new
              rw [stands remembered] at accepts
              cases accepts

end RefusalsApart

/-- What is held is not remembered as refused, and a header on top of what is held is
    refused by the rules alone. -/
structure AcceptedApart (net : Network H) (t : HeaderTree H) : Prop where
  refused_not_held : ∀ hash reason, t.rejectionOf hash = some reason → t.heightOf hash = none
  refused_by_rules : ∀ header parent reason,
    t.headers.lookup header.prevBlockhash = some parent →
    (t.insertInner net header).2 = .error reason →
    t.validateHeader net header (parent.height + 1) parent = .error reason

theorem HeaderTree.validation_reason {t : HeaderTree H} {header : Header H}
    {parent : HeaderEntry H} {reason : HeaderError}
    (placed : t.headers.lookup header.prevBlockhash = some parent)
    (refused : (t.insertInner net header).2 = .error reason) :
    t.validateHeader net header (parent.height + 1) parent = .error reason := by
  simp only [insertInner] at refused
  split at refused
  · cases refused
  · rw [placed] at refused
    simp only at refused
    split at refused
    · rename_i said
      rw [said]
      simpa using refused
    · cases refused

/-- In a run that never offers a header it took for a weaker chain's once it would
    accept it, accepted and refused are disjoint. -/
theorem run_accepted_apart (net : Network H) (checkpoints : List (Checkpoint H))
    (distinct : (checkpoints.map Checkpoint.height).Nodup) (batches : List (List (Header H)))
    (stands : ∀ offer ∈ HeaderTree.offers net checkpoints batches,
      GuessStands net offer.1 offer.2) :
    AcceptedApart net (HeaderTree.run net checkpoints batches) := by
  have apart := HeaderTree.run_induct net checkpoints
    (P := fun t offered => (∀ offer ∈ offered, GuessStands net offer.1 offer.2) →
      ∃ held, Represents net t held ∧ RefusalsApart net t held)
    ?_ ?_ ?_ batches
  · obtain ⟨held, R, A⟩ := apart stands
    refine ⟨fun hash reason remembered => ?_, fun _ _ _ => HeaderTree.validation_reason⟩
    have absent : hash ∉ (HeaderTree.run net checkpoints batches).headers := by
      cases A hash reason remembered with
      | inl barred => exact barred.not_mem R
      | inr guess => exact guess.2
    rw [HeaderTree.heightOf, AList.lookup_eq_none.mpr absent]
    rfl
  · intro _
    refine ⟨_, (withCheckpoints_synced net checkpoints distinct).toRepresents, ?_⟩
    intro hash reason remembered
    have fresh : (HeaderTree.withCheckpoints net checkpoints).rejected = ∅ :=
      (HeaderTree.noteCheckpoint_sameRefusals _ _ _).rejected
    rw [HeaderTree.rejectionOf, fresh] at remembered
    cases remembered
  · intro t offered header ih stands
    obtain ⟨held, R, A⟩ := ih fun offer member => stands offer (List.mem_append_left _ member)
    exact A.insertInner R (stands (t, header) (by simp))
  · intro t offered bestChain ih stands
    obtain ⟨held, R, A⟩ := ih stands
    exact ⟨held, ⟨R.toMapOf, R.heights_nodup, R.unreached, R.reached, R.tip, R.heaviest⟩, A⟩

/-- A child before its parent, then a header with bits mainnet does not ask for. -/
theorem run_accepted_apart_mainnet :
    AcceptedApart Params.mainnet.network (HeaderTree.run Params.mainnet.network []
      [[Params.mine (Params.mine Params.mainnet.genesis 1 1231006600 0x1d00ffff) 2 1231006700
          0x1d00ffff, Params.mine Params.mainnet.genesis 1 1231006600 0x1d00ffff],
        [Params.mine Params.mainnet.genesis 3 1231006600 0x1c7fff80]]) := by
  apply run_accepted_apart
  · decide
  · decide +kernel

/-! ## A guess that did not stand -/

theorem HeaderTree.insertInner_weaker {t : HeaderTree H} {header : Header H}
    (unknown : net.blockHash header ∉ t.headers) (orphan : header.prevBlockhash ∉ t.headers)
    (unheard : header.prevBlockhash ∉ t.rejected)
    (weaker : t.weakerThanOurTip net header = true) :
    (t.insertInner net header).1 = t.rememberRejected (net.blockHash header) .weakerChain := by
  rw [insertInner, if_neg unknown, AList.lookup_eq_none.mpr orphan]
  simp [refuseUnplaced, rejectionOf, AList.lookup_eq_none.mpr unheard, weaker]

/-- A block offered before its parent and taken for a weaker chain's is accepted when it
    comes again after the parent, and stays remembered as refused. -/
theorem Represents.guess_outlives {t : HeaderTree H} {held : Set (List (Header H))}
    (R : Represents net t held) (plain : t.checkpoints = []) (empty : t.rejected = ∅)
    {upper lower p : Header H} {rest : List (Header H)} (parent : p :: rest ∈ held)
    (fresh : ∀ below, lower :: below ∉ held) (fresh' : ∀ below, upper :: below ∉ held)
    (link : lower.prevBlockhash = net.blockHash p)
    (link' : upper.prevBlockhash = net.blockHash lower)
    (off : lower ≠ net.genesis) (off' : upper ≠ net.genesis)
    (sound : Sound net [] lower (p :: rest)) (sound' : Sound net [] upper (lower :: p :: rest))
    (weaker : t.weakerThanOurTip net upper = true) :
    (t.insertEach net [upper, lower, upper]).1.rejectionOf (net.blockHash upper) =
        some .weakerChain ∧
      (t.insertEach net [upper, lower, upper]).1.heightOf (net.blockHash upper) =
        some (rest.length + 2) := by
  have absent : ∀ n, (∀ below, n :: below ∉ held) → net.blockHash n ∉ t.headers := by
    intro n unheld member
    obtain ⟨m, below, held, key⟩ := R.mem_iff.mp member
    obtain rfl := net.blockHash_injective key
    exact unheld below held
  have distinct : upper ≠ lower := by
    intro same
    rw [same] at link'
    obtain rfl := net.blockHash_injective (link.symm.trans link')
    exact fresh rest parent
  have guessed := HeaderTree.insertInner_weaker (absent upper fresh')
    (link' ▸ absent lower fresh) (by simp [empty]) weaker
  have remembered : ((t.insertInner net upper).1).rejectionOf (net.blockHash upper) =
      some .weakerChain := by
    rw [guessed, HeaderTree.rejectionOf, HeaderTree.rememberRejected_of_room (by simp [empty])
      (by simp [empty, HashMap.size, REJECTED_REMEMBERED]), AList.lookup_insert]
    rfl
  have same := HeaderTree.rememberRejected_sameChain t (net.blockHash upper) .weakerChain
  rw [← guessed] at same
  obtain ⟨R₁, frame₁, -⟩ := (R.of_sameChain same).insertInner_plain (same.checkpoints.trans plain)
    fresh parent link off sound
  have fresh₁ : ∀ below, upper :: below ∉ Insert.insert (lower :: p :: rest) held := by
    intro below member
    cases member with
    | inl new => exact distinct (List.cons.inj new).1
    | inr old => exact fresh' below old
  obtain ⟨R₂, frame₂, -⟩ := R₁.insertInner_plain
    (frame₁.checkpoints.trans (same.checkpoints.trans plain)) fresh₁ (Set.mem_insert _ _) link' off'
    sound'
  simp only [HeaderTree.insertEach_cons_tree, HeaderTree.insertEach_nil_tree]
  constructor
  · rw [HeaderTree.rejectionOf, (frame₁.trans frame₂).rejected]
    exact remembered
  · rw [HeaderTree.heightOf, R₂.toMapOf.lookup (Set.mem_insert _ _)]
    rfl

/-- Blocks so fast that the first two retargets each quarter the target. -/
def fastTime (n : Nat) : Nat := 1231006505 + 150 * n

def fastBits (n : Nat) : Nat :=
  if n < 2016 then 0x1d00ffff else if n < 4032 then 0x1c3fffc0 else 0x1c0ffff0

theorem fast_plan : Params.Plan .mainnet fastTime fastBits 4032 where
  time_zero := rfl
  bits_zero := rfl
  easy := by
    have all : ∀ b ∈ [0x1d00ffff, 0x1c3fffc0, 0x1c0ffff0],
        targetOf b ≤ Params.mainnet.maxAttainableTarget := by decide +kernel
    intro n _
    apply all
    simp only [fastBits]
    split
    · simp
    · split <;> simp
  inside := by
    intro n lt inside
    simp only [PERIOD] at inside
    simp only [fastBits]
    split_ifs <;> omega
  retarget := by
    intro n lt opens
    simp only [PERIOD] at opens
    have at_end : n = 2015 ∨ n = 4031 := by omega
    cases at_end with
    | inl at_end => subst at_end; decide +kernel
    | inr at_end => subst at_end; decide +kernel

/-- Two blocks on genesis at its difficulty. -/
def lowerBlock : Header (List Nat) :=
  Params.mine Params.mainnet.genesis 5000 1231006600 0x1d00ffff

def upperBlock : Header (List Nat) := Params.mine lowerBlock 5001 1231006700 0x1d00ffff

/-- At difficulty 16, the upper block's own target says it is a weaker chain's. -/
theorem upperBlock_weaker {t : HeaderTree (List Nat)}
    (chain : Params.Follows .mainnet fastTime fastBits 4032 t) :
    t.weakerThanOurTip Params.mainnet.network upperBlock = true := by
  obtain ⟨below, eq, -⟩ :=
    Params.branch_eq_cons .mainnet fastTime fastBits 4032
  have held : Params.mainnet.chain fastTime fastBits 4032 :: below ∈
      {b | ∃ k ≤ 4032, b = Params.mainnet.branch fastTime fastBits k} := ⟨4032, le_rfl, eq.symm⟩
  have at_tip := chain.represents.toMapOf.lookup held
  rw [← chain.tip] at at_tip
  rw [HeaderTree.weakerThanOurTip, if_neg (by decide), at_tip]
  simp only [entryOf, Params.chain_bits fast_plan]
  decide +kernel

theorem upperBlock_refused_and_held {t : HeaderTree (List Nat)}
    (chain : Params.Follows .mainnet fastTime fastBits 4032 t) :
    (t.insertEach Params.mainnet.network [upperBlock, lowerBlock, upperBlock]).1.rejectionOf
        (Params.blockHash upperBlock) = some .weakerChain ∧
      (t.insertEach Params.mainnet.network [upperBlock, lowerBlock, upperBlock]).1.heightOf
        (Params.blockHash upperBlock) = some 2 := by
  have lower_high : 4032 < lowerBlock.merkleRoot := by simp [lowerBlock, Params.mine]
  have upper_high : 4032 < upperBlock.merkleRoot := by simp [upperBlock, Params.mine]
  have root : [Params.mainnet.genesis] ∈
      {b | ∃ k ≤ 4032, b = Params.mainnet.branch fastTime fastBits k} :=
    ⟨0, Nat.zero_le _, Params.branch_zero.symm⟩
  refine chain.represents.guess_outlives chain.checkpoints chain.rejected root
    (fun _ member => absurd (Params.merkleRoot_le member) (Nat.not_le.mpr lower_high))
    (fun _ member => absurd (Params.merkleRoot_le member) (Nat.not_le.mpr upper_high)) rfl rfl
    ?_ ?_ ?_ ?_ (upperBlock_weaker chain)
  · exact Params.mine_ne_genesis _ _ _ _
  · exact Params.mine_ne_genesis _ _ _ _
  · exact Params.sound_mine (by decide +kernel) (by decide +kernel)
  · exact Params.sound_mine (by decide +kernel) (by decide +kernel)

/-- The upper block offered before the lower: first it is refused as a weaker chain's,
    then it is accepted, and the refusal stays. -/
theorem refused_and_held :
    ¬ AcceptedApart Params.mainnet.network (HeaderTree.run Params.mainnet.network []
      [Params.mainnet.headers fastTime fastBits 4032 ++ [upperBlock, lowerBlock, upperBlock]]) := by
  intro apart
  rw [HeaderTree.run_singleton] at apart
  obtain ⟨remembered, height⟩ := upperBlock_refused_and_held (Params.follows_chain fast_plan le_rfl)
  rw [← HeaderTree.insertEach_append_tree] at remembered height
  rw [← HeaderTree.insertBatch_rejectionOf] at remembered
  rw [← HeaderTree.insertBatch_heightOf] at height
  have missing := apart.refused_not_held _ _ remembered
  rw [height] at missing
  cases missing

end P2PObserver
