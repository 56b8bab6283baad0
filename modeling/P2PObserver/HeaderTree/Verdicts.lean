import P2PObserver.HeaderTree.Refusals

/-! # Verdicts on stray branches

Below a reached checkpoint nothing new is accepted, so a header off the checkpoint's
chain is refused as long as the tree can tell where its parent is. It can when it holds
the parent or remembers refusing it; what pruning drops it does not remember.
-/

namespace P2PObserver

variable {H : Type} [LinearOrder H] {net : Network H}

namespace HeaderTree

/-- What `insert_batch` reports of a header on its own. -/
def verdictOn (net : Network H) (t : HeaderTree H) (header : Header H) : Option HeaderError :=
  (t.insertBatch net [header]).2.2

/-- Whether it reports that the header is of another chain. -/
def refuses (net : Network H) (t : HeaderTree H) (header : Header H) : Bool :=
  (t.verdictOn net header).any HeaderError.isOtherChain

/-- The error an insertion ends with. -/
def errorOf : Except HeaderError Bool → Option HeaderError
  | .ok _ => none
  | .error reason => some reason

theorem verdictOn_eq (net : Network H) (t : HeaderTree H) (header : Header H) :
    t.verdictOn net header = errorOf (t.insertInner net header).2 := by
  simp only [verdictOn, insertBatch, insertEach]
  cases (t.insertInner net header).2 with
  | error reason => rfl
  | ok new => cases new <;> rfl

/-! ## One refusal -/

/-- The memory holds one more hash, if it was not there. -/
structure Adds (t t' : HeaderTree H) (hash : H) : Prop where
  mem_iff : ∀ hash', hash' ∈ t'.rejected ↔ hash' = hash ∨ hash' ∈ t.rejected
  size_le : HashMap.size t'.rejected ≤ HashMap.size t.rejected + 1

theorem rememberRejected_adds {t : HeaderTree H} (hash : H) (reason : HeaderError)
    (room : HashMap.size t.rejected < REJECTED_REMEMBERED) :
    Adds t (t.rememberRejected hash reason) hash := by
  by_cases new : hash ∈ t.rejected
  · have same : t.rememberRejected hash reason = t := if_pos new
    rw [same]
    refine ⟨fun hash' => ⟨.inr, fun member => ?_⟩, Nat.le_succ _⟩
    cases member with
    | inl eq => exact eq ▸ new
    | inr old => exact old
  · have grown : (t.rememberRejected hash reason).rejected =
        t.rejected.insert hash (reason, t.nextRejectedSeq.1) := rememberRejected_of_room new room
    refine ⟨fun hash' => ?_, ?_⟩
    · rw [grown, AList.mem_insert]
    · rw [grown]
      exact HashMap.size_insert_le _ _ _

theorem mem_touchRejected (t : HeaderTree H) (hash hash' : H) :
    hash' ∈ (t.touchRejected hash).rejected ↔ hash' ∈ t.rejected := by
  have same := rejectionOf_touchRejected t hash hash'
  simp only [rejectionOf] at same
  rw [← AList.lookup_isSome, ← AList.lookup_isSome, ← Option.isSome_map, same, Option.isSome_map]

theorem size_touchRejected (t : HeaderTree H) (hash : H) :
    HashMap.size (t.touchRejected hash).rejected = HashMap.size t.rejected := by
  simp only [touchRejected, nextRejectedSeq]
  cases found : t.rejected.lookup hash with
  | none => rfl
  | some refusal =>
      exact HashMap.size_insert_of_mem (HashMap.mem_iff_lookup.mpr ⟨refusal, found⟩) _

theorem Adds.of_touched {t t' : HeaderTree H} {parent hash : H}
    (adds : Adds (t.touchRejected parent) t' hash) : Adds t t' hash where
  mem_iff := by
    intro hash'
    rw [adds.mem_iff, mem_touchRejected]
  size_le := by
    rw [← size_touchRejected t parent]
    exact adds.size_le

/-- Every refusal remembered is of another chain. -/
def OnlyOtherChains (t : HeaderTree H) : Prop :=
  ∀ hash reason, t.rejectionOf hash = some reason → reason.isOtherChain = true

theorem OnlyOtherChains.remember {t : HeaderTree H} (only : t.OnlyOtherChains) {hash : H}
    {reason : HeaderError} (other : reason.isOtherChain = true) :
    (t.rememberRejected hash reason).OnlyOtherChains := by
  intro hash' reason' remembered
  cases rejectionOf_rememberRejected remembered with
  | inl before => exact only hash' reason' before
  | inr new =>
      obtain ⟨-, rfl⟩ := new
      exact other

theorem OnlyOtherChains.touch {t : HeaderTree H} (only : t.OnlyOtherChains) (hash : H) :
    (t.touchRejected hash).OnlyOtherChains := by
  intro hash' reason remembered
  rw [rejectionOf_touchRejected] at remembered
  exact only hash' reason remembered

end HeaderTree

theorem Network.verdict_isOtherChain {checkpoints : List (Checkpoint H)} {reached : Option Nat}
    {header : Header H} {below : List (Header H)} {reason : HeaderError}
    (refused : net.verdict checkpoints reached header below = .error reason) :
    reason.isOtherChain = true := by
  obtain ⟨placed, -⟩ := Network.verdict_error refused
  cases reason with
  | orphanHeader => exact absurd rfl placed
  | weakerChain => rfl
  | invalidPow => rfl
  | targetTooEasy => rfl
  | checkpointMismatch => rfl
  | forkBelowCheckpoint => rfl

namespace HeaderTree

/-- What one insertion does to the memory: a refusal as another chain's is remembered,
    and nothing else is. -/
structure Recalls (t t' : HeaderTree H) (hash : H) (error : Option HeaderError) : Prop where
  only : t'.OnlyOtherChains
  adds : error.any HeaderError.isOtherChain = true →
    HashMap.size t.rejected < REJECTED_REMEMBERED → Adds t t' hash
  keeps : error.any HeaderError.isOtherChain = false → t'.rejected = t.rejected

theorem OnlyOtherChains.recalls {t : HeaderTree H} (only : t.OnlyOtherChains) {hash : H}
    {reason : HeaderError} (other : reason.isOtherChain = true) :
    Recalls t (t.rememberRejected hash reason) hash (some reason) where
  only := only.remember other
  adds _ room := rememberRejected_adds hash reason room
  keeps kept := by
    rw [Option.any_some, other] at kept
    cases kept

theorem refuseUnplaced_recalls {t : HeaderTree H} (only : t.OnlyOtherChains)
    (net : Network H) (header : Header H) :
    Recalls t (t.refuseUnplaced net header).1 (net.blockHash header)
      (some (t.refuseUnplaced net header).2) := by
  simp only [refuseUnplaced]
  split
  · rename_i reason inherited
    have other := only _ _ inherited
    have recalls : Recalls (t.touchRejected header.prevBlockhash)
        ((t.touchRejected header.prevBlockhash).rememberRejected (net.blockHash header) reason)
        (net.blockHash header) (some reason) := (only.touch header.prevBlockhash).recalls other
    refine ⟨recalls.only, fun told room => ?_, fun kept => ?_⟩
    · rw [← size_touchRejected t header.prevBlockhash] at room
      exact (recalls.adds told room).of_touched
    · rw [Option.any_some, other] at kept
      cases kept
  · split
    · exact only.recalls rfl
    · refine ⟨only, fun told => ?_, fun _ => rfl⟩
      cases told

end HeaderTree

theorem InsertOutcome.recalls {t t' : HeaderTree H} {held : Set (List (Header H))}
    {header : Header H} {result : Except HeaderError Bool} (only : t.OnlyOtherChains)
    (outcome : InsertOutcome net t held header t' result) :
    t.Recalls t' (net.blockHash header) (HeaderTree.errorOf result) := by
  cases outcome with
  | known => exact ⟨only, fun told => (by cases told), fun _ => rfl⟩
  | unplaced => exact HeaderTree.refuseUnplaced_recalls only net header
  | refused _ _ _ said => exact only.recalls (Network.verdict_isOtherChain said)
  | accepted =>
      rename_i p rest _
      have same := (HeaderTree.accept_sameRefusals net t header (entryOf net p rest)).rejected
      refine ⟨fun hash reason remembered => ?_, fun told => (by cases told), fun _ => same⟩
      rw [HeaderTree.rejectionOf, same] at remembered
      exact only hash reason remembered

/-! ## The memory over a run -/

namespace HeaderTree

/-- How many offers were refused as another chain's. -/
def refusals (net : Network H) (offered : List (HeaderTree H × Header H)) : Nat :=
  offered.countP fun offer => offer.1.refuses net offer.2

/-- What a run remembers of its refusals: all of them, while there is room. -/
structure RemembersAll (net : Network H) (t : HeaderTree H)
    (offered : List (HeaderTree H × Header H)) : Prop where
  only : t.OnlyOtherChains
  size_le : refusals net offered ≤ REJECTED_REMEMBERED →
    HashMap.size t.rejected ≤ refusals net offered
  mem_iff : refusals net offered ≤ REJECTED_REMEMBERED → ∀ hash, hash ∈ t.rejected ↔
    ∃ offer ∈ offered, net.blockHash offer.2 = hash ∧ offer.1.refuses net offer.2 = true

theorem RemembersAll.insertInner {t : HeaderTree H} {offered : List (HeaderTree H × Header H)}
    (remembers : RemembersAll net t offered) {header : Header H}
    (recalls : t.Recalls (t.insertInner net header).1 (net.blockHash header)
      (t.verdictOn net header)) :
    RemembersAll net (t.insertInner net header).1 (offered ++ [(t, header)]) := by
  cases told : t.refuses net header with
  | true =>
      have count : refusals net (offered ++ [(t, header)]) = refusals net offered + 1 := by
        simp [refusals, List.countP_append, told]
      refine ⟨recalls.only, fun few => ?_, fun few hash => ?_⟩
      · rw [count] at few ⊢
        have le := remembers.size_le (by omega)
        have adds := recalls.adds told (by omega)
        have le' := adds.size_le
        omega
      · rw [count] at few
        have le := remembers.size_le (by omega)
        have adds := recalls.adds told (by omega)
        rw [adds.mem_iff, remembers.mem_iff (by omega)]
        constructor
        · intro either
          cases either with
          | inl new => exact ⟨(t, header), by simp, new.symm, told⟩
          | inr old =>
              obtain ⟨offer, listed, rest⟩ := old
              exact ⟨offer, List.mem_append_left _ listed, rest⟩
        · rintro ⟨offer, listed, key, refused⟩
          cases List.mem_append.mp listed with
          | inl old => exact .inr ⟨offer, old, key, refused⟩
          | inr new =>
              obtain rfl := List.mem_singleton.mp new
              exact .inl key.symm
  | false =>
      have count : refusals net (offered ++ [(t, header)]) = refusals net offered := by
        simp [refusals, List.countP_append, told]
      have same := recalls.keeps told
      refine ⟨recalls.only, fun few => ?_, fun few hash => ?_⟩
      · rw [count] at few ⊢
        rw [same]
        exact remembers.size_le few
      · rw [count] at few
        rw [same, remembers.mem_iff few]
        constructor
        · rintro ⟨offer, listed, rest⟩
          exact ⟨offer, List.mem_append_left _ listed, rest⟩
        · rintro ⟨offer, listed, key, refused⟩
          cases List.mem_append.mp listed with
          | inl old => exact ⟨offer, old, key, refused⟩
          | inr new =>
              obtain rfl := List.mem_singleton.mp new
              rw [told] at refused
              cases refused

end HeaderTree

/-! ## Stray branches -/

/-- A branch that leaves the chain of the checkpoint the tree has reached, below that
    checkpoint. -/
def Strays (net : Network H) (t : HeaderTree H) (branch : List (Header H)) : Prop :=
  ∃ reached checkpoint, t.reachedCheckpoint = some reached ∧ net.IsBranch checkpoint ∧
    IsCheckpoint net t.checkpoints checkpoint ∧ checkpoint.length = reached + 1 ∧
    ¬ Lineage.Comparable branch checkpoint

namespace Represents

variable {t : HeaderTree H} {held : Set (List (Header H))}

/-- A tree goes on representing some branches. -/
theorem insertInner (R : Represents net t held) (header : Header H) :
    ∃ held', Represents net (t.insertInner net header).1 held' := by
  have outcome := R.insertInner_outcome header
  generalize (t.insertInner net header).1 = t', (t.insertInner net header).2 = result
    at outcome ⊢
  cases outcome with
  | known => exact ⟨held, R⟩
  | unplaced => exact ⟨held, R.of_sameChain (HeaderTree.refuseUnplaced_sameChain net t header)⟩
  | refused => exact ⟨held, R.of_sameChain (HeaderTree.rememberRejected_sameChain t _ _)⟩
  | accepted ok => exact ⟨_, R.accept ok⟩

/-- The chain of the reached checkpoint is held. -/
theorem checkpoint_mem (R : Represents net t held) {reached : Nat}
    (is_reached : t.reachedCheckpoint = some reached) {checkpoint : List (Header H)}
    (branch : net.IsBranch checkpoint) (isCheckpoint : IsCheckpoint net t.checkpoints checkpoint)
    (length : checkpoint.length = reached + 1) : checkpoint ∈ held := by
  obtain ⟨c, hc, isCheckpoint', length', -, -⟩ := R.reached reached is_reached
  cases checkpoint with
  | nil => cases length
  | cons n rest =>
      cases c with
      | nil => cases length'
      | cons m below =>
          obtain ⟨a, listed, height, key⟩ := isCheckpoint
          obtain ⟨b, listed', height', key'⟩ := isCheckpoint'
          simp only [List.length_cons] at length length'
          have same : a = b :=
            List.inj_on_of_nodup_map R.heights_nodup listed listed' (by omega)
          rw [← R.toMapOf.eq_of_hash hc branch (by rw [← key', ← key, same])]
          exact hc

/-- Nothing that strays is held. -/
theorem not_mem_of_strays (R : Represents net t held) {branch : List (Header H)}
    (strays : Strays net t branch) : branch ∉ held := by
  obtain ⟨reached, c, is_reached, isBranch, isCheckpoint, length, apart⟩ := strays
  have mem := R.checkpoint_mem is_reached isBranch isCheckpoint length
  obtain ⟨c', hc', isCheckpoint', length', comparable, -⟩ := R.reached reached is_reached
  intro member
  have same := (comparable c mem).suffix_of_length_le (by omega)
  rw [same.eq_of_length (by omega)] at apart
  exact apart (comparable branch member)

/-- A stray header is refused as another chain's if the tree holds or remembers its
    parent, or its own target is far too easy, and is an orphan otherwise. -/
theorem verdictOn_stray (R : Represents net t held) (only : t.OnlyOtherChains)
    {header p : Header H} {rest : List (Header H)} (branch : net.IsBranch (header :: p :: rest))
    (strays : Strays net t (header :: p :: rest)) :
    if t.seen (net.blockHash p) || t.weakerThanOurTip net header then t.refuses net header = true
    else t.verdictOn net header = some .orphanHeader := by
  have link : header.prevBlockhash = net.blockHash p := branch.link
  have outcome := R.insertInner_outcome header
  rw [HeaderTree.refuses, HeaderTree.verdictOn_eq]
  generalize (t.insertInner net header).1 = t', (t.insertInner net header).2 = result
    at outcome ⊢
  cases outcome with
  | known held =>
      have own := branch.unique_of_key (R.toMapOf.branch held) rfl
      rw [← own] at held
      exact absurd held (R.not_mem_of_strays strays)
  | accepted ok =>
      rename_i p' rest'
      have own := branch.tail (by simp)
      obtain same := own.unique_of_key (R.toMapOf.branch ok.parent) (link.symm.trans ok.link)
      obtain ⟨rfl, rfl⟩ := List.cons.inj same
      obtain ⟨reached, c, is_reached, isBranch, isCheckpoint, length, apart⟩ := strays
      obtain ⟨c', hc', -, length', comparable, -⟩ := R.reached reached is_reached
      have mem := R.checkpoint_mem is_reached isBranch isCheckpoint length
      have above := ok.above reached is_reached
      have same := (comparable c mem).suffix_of_length_le (by omega)
      rw [same.eq_of_length (by omega)] at apart
      exact absurd ((comparable _ ok.parent).cons_of_length_le (by omega)) apart
  | refused fresh parent link' said =>
      rename_i p' rest' reason
      have held : net.blockHash p ∈ t.headers := by
        rw [← link, link']
        exact R.mem_iff.mpr ⟨p', rest', parent, rfl⟩
      have seen : t.seen (net.blockHash p) = true := by simp [HeaderTree.seen, held]
      rw [seen, Bool.true_or, if_pos rfl]
      exact Network.verdict_isOtherChain said
  | unplaced fresh missing =>
      have absent : net.blockHash p ∉ t.headers := by
        intro member
        obtain ⟨n, below, held, key⟩ := R.mem_iff.mp member
        exact missing n below held (key.trans link.symm)
      have seen : t.seen (net.blockHash p) = (t.rejectionOf header.prevBlockhash).isSome := by
        rw [HeaderTree.rejectionOf, Option.isSome_map, link, HeaderTree.seen,
          decide_eq_false absent, Bool.false_or, Bool.eq_iff_iff, decide_eq_true_iff,
          AList.lookup_isSome]
      rw [seen]
      simp only [HeaderTree.refuseUnplaced, HeaderTree.errorOf]
      cases inherited : t.rejectionOf header.prevBlockhash with
      | some reason => exact only _ _ inherited
      | none => cases t.weakerThanOurTip net header <;> rfl

end Represents

/-! ## Verdicts over a run -/

/-- What a run's invariant says of every tree a header is offered to. -/
theorem HeaderTree.offers_induct (net : Network H) (checkpoints : List (Checkpoint H))
    {P : HeaderTree H → List (HeaderTree H × Header H) → Prop}
    (start : P (withCheckpoints net checkpoints) [])
    (step : ∀ t offered header, P t offered →
      P (t.insertInner net header).1 (offered ++ [(t, header)]))
    (rebuild : ∀ t offered bestChain, P t offered → P { t with bestChain } offered)
    (batches : List (List (Header H))) {earlier later : List (HeaderTree H × Header H)}
    {t : HeaderTree H} {header : Header H}
    (offer : offers net checkpoints batches = earlier ++ (t, header) :: later) : P t earlier := by
  have all := run_induct net checkpoints
    (P := fun t offered => P t offered ∧ ∀ earlier t' header later,
      offered = earlier ++ (t', header) :: later → P t' earlier) ?_ ?_ ?_ batches
  · exact all.2 earlier t header later offer
  · refine ⟨start, fun earlier t' header later nothing => ?_⟩
    simp at nothing
  · rintro t offered header ⟨now, before⟩
    refine ⟨step t offered header now, fun earlier t' header' later here => ?_⟩
    rcases List.eq_nil_or_concat later with rfl | ⟨later, last, rfl⟩
    · obtain ⟨rfl, same⟩ := List.append_singleton_inj.mp here
      cases same
      exact now
    · rw [List.concat_eq_append, ← List.cons_append, ← List.append_assoc] at here
      obtain ⟨here, -⟩ := List.append_singleton_inj.mp here
      exact before earlier t' header' later here
  · rintro t offered bestChain ⟨now, before⟩
    exact ⟨rebuild t offered bestChain now, before⟩

/-- The tree that has been given nothing represents some branches and remembers no refusal. -/
theorem withCheckpoints_remembered {checkpoints : List (Checkpoint H)}
    (distinct : (checkpoints.map Checkpoint.height).Nodup) :
    (∃ held, Represents net (HeaderTree.withCheckpoints net checkpoints) held) ∧
      HeaderTree.RemembersAll net (HeaderTree.withCheckpoints net checkpoints) [] := by
  have fresh : (HeaderTree.withCheckpoints net checkpoints).rejected = ∅ :=
    (HeaderTree.noteCheckpoint_sameRefusals _ _ _).rejected
  refine ⟨⟨_, (withCheckpoints_synced net checkpoints distinct).toRepresents⟩, ?_, ?_, ?_⟩
  · intro hash reason remembered
    rw [HeaderTree.rejectionOf, fresh] at remembered
    cases remembered
  · intro _
    rw [fresh]
    exact Nat.zero_le _
  · intro _ hash
    rw [fresh]
    simp

/-- An insertion keeps both. -/
theorem insertInner_remembered {t : HeaderTree H} {offered : List (HeaderTree H × Header H)}
    (header : Header H)
    (before : (∃ held, Represents net t held) ∧ HeaderTree.RemembersAll net t offered) :
    (∃ held, Represents net (t.insertInner net header).1 held) ∧
      HeaderTree.RemembersAll net (t.insertInner net header).1 (offered ++ [(t, header)]) := by
  obtain ⟨⟨held, R⟩, remembers⟩ := before
  have recalls := (R.insertInner_outcome header).recalls remembers.only
  rw [← HeaderTree.verdictOn_eq] at recalls
  exact ⟨R.insertInner header, remembers.insertInner recalls⟩

/-- So does rebuilding the best chain. -/
theorem rebuilt_remembered {t : HeaderTree H} {offered : List (HeaderTree H × Header H)}
    (bestChain : List H)
    (before : (∃ held, Represents net t held) ∧ HeaderTree.RemembersAll net t offered) :
    (∃ held, Represents net { t with bestChain } held) ∧
      HeaderTree.RemembersAll net { t with bestChain } offered := by
  obtain ⟨⟨held, R⟩, remembers⟩ := before
  exact ⟨⟨held, R.toMapOf, R.heights_nodup, R.unreached, R.reached, R.tip, R.heaviest⟩,
    remembers.only, remembers.size_le, remembers.mem_iff⟩

/-- A run's trees represent some branches and remember its refusals. -/
theorem offers_remembered {checkpoints : List (Checkpoint H)}
    (distinct : (checkpoints.map Checkpoint.height).Nodup)
    (batches : List (List (Header H))) {earlier later : List (HeaderTree H × Header H)}
    {t : HeaderTree H} {header : Header H}
    (offer : HeaderTree.offers net checkpoints batches = earlier ++ (t, header) :: later) :
    (∃ held, Represents net t held) ∧ HeaderTree.RemembersAll net t earlier :=
  HeaderTree.offers_induct net checkpoints
    (P := fun t offered => (∃ held, Represents net t held) ∧ HeaderTree.RemembersAll net t offered)
    (withCheckpoints_remembered distinct) (fun _ _ header => insertInner_remembered header)
    (fun _ _ bestChain => rebuilt_remembered bestChain) batches offer

theorem run_remembered (net : Network H) {checkpoints : List (Checkpoint H)}
    (distinct : (checkpoints.map Checkpoint.height).Nodup) (batches : List (List (Header H))) :
    (∃ held, Represents net (HeaderTree.run net checkpoints batches) held) ∧
      HeaderTree.RemembersAll net (HeaderTree.run net checkpoints batches)
        (HeaderTree.offers net checkpoints batches) :=
  HeaderTree.run_induct net checkpoints
    (P := fun t offered => (∃ held, Represents net t held) ∧ HeaderTree.RemembersAll net t offered)
    (withCheckpoints_remembered distinct) (fun _ _ header => insertInner_remembered header)
    (fun _ _ bestChain => rebuilt_remembered bestChain) batches

/-- After a checkpoint, a header off its chain is refused as another chain's exactly if
    the tree still knows its parent or the header is far too easy; with room for every
    refusal, the parents it knows are those it holds and those it refused. -/
theorem run_verdicts (net : Network H) (checkpoints : List (Checkpoint H))
    (distinct : (checkpoints.map Checkpoint.height).Nodup) (batches : List (List (Header H)))
    {earlier later : List (HeaderTree H × Header H)} {t : HeaderTree H} {header p : Header H}
    {rest : List (Header H)}
    (offer : HeaderTree.offers net checkpoints batches = earlier ++ (t, header) :: later)
    (branch : net.IsBranch (header :: p :: rest)) (strays : Strays net t (header :: p :: rest)) :
    (t.refuses net header = true ↔
        t.seen (net.blockHash p) = true ∨ t.weakerThanOurTip net header = true) ∧
      (t.refuses net header = false → t.verdictOn net header = some .orphanHeader) ∧
      (HeaderTree.refusals net earlier ≤ REJECTED_REMEMBERED →
        (t.seen (net.blockHash p) = true ↔ net.blockHash p ∈ t.headers ∨
          ∃ offer ∈ earlier, offer.2 = p ∧ offer.1.refuses net offer.2 = true)) := by
  obtain ⟨⟨held, R⟩, remembers⟩ := offers_remembered distinct batches offer
  have verdict := R.verdictOn_stray remembers.only branch strays
  refine ⟨?_, ?_, fun few => ?_⟩
  · rw [← Bool.or_eq_true]
    split at verdict
    · rename_i known
      exact ⟨fun _ => known, fun _ => verdict⟩
    · rename_i unknown
      refine ⟨fun refused => ?_, fun known => absurd known unknown⟩
      rw [HeaderTree.refuses, verdict] at refused
      cases refused
  · intro spared
    split at verdict
    · rw [spared] at verdict
      cases verdict
    · exact verdict
  · rw [HeaderTree.seen, Bool.or_eq_true, decide_eq_true_iff, decide_eq_true_iff,
      remembers.mem_iff few]
    refine or_congr_right ⟨?_, ?_⟩
    · rintro ⟨offer, listed, key, refused⟩
      exact ⟨offer, listed, net.blockHash_injective key, refused⟩
    · rintro ⟨offer, listed, rfl, refused⟩
      exact ⟨offer, listed, rfl, refused⟩

/-! ## A branch that was pruned -/

/-- After a checkpoint, every header off its chain whose ancestors were all given is
    refused as another chain's. -/
def VerdictsSurvive (net : Network H) (checkpoints : List (Checkpoint H))
    (batches : List (List (Header H))) : Prop :=
  ∀ earlier t header rest later,
    HeaderTree.offers net checkpoints batches = earlier ++ (t, header) :: later →
    net.IsBranch (header :: rest) → Strays net t (header :: rest) →
    (∀ ancestor ∈ rest, ancestor = net.genesis ∨ ancestor ∈ earlier.map Prod.snd) →
    HeaderTree.refusals net earlier ≤ REJECTED_REMEMBERED → t.refuses net header = true

namespace Fork

open Params

/-- Two blocks on genesis, and one on each. -/
def main₁ : Header (List Nat) := mine mainnet.genesis 1 1231006600 0x1d00ffff

def main₂ : Header (List Nat) := mine main₁ 2 1231006700 0x1d00ffff

def stray₁ : Header (List Nat) := mine mainnet.genesis 3 1231006600 0x1d00ffff

def stray₂ : Header (List Nat) := mine stray₁ 4 1231006700 0x1d00ffff

def checkpoints : List (Checkpoint (List Nat)) := [⟨2, blockHash main₂⟩]

/-- The tree after the stray block and then the checkpoint. -/
def pruned : HeaderTree (List Nat) :=
  HeaderTree.run mainnet.network checkpoints [[stray₁], [main₁, main₂]]

/-- The tree after the checkpoint and then the stray block. -/
def refused : HeaderTree (List Nat) :=
  HeaderTree.run mainnet.network checkpoints [[main₁, main₂], [stray₁]]

theorem branch : mainnet.network.IsBranch [stray₂, stray₁, mainnet.genesis] :=
  .child (.child .root rfl (by decide)) rfl (by decide)

theorem strays {t : HeaderTree (List Nat)} (listed : t.checkpoints = checkpoints)
    (reached : t.reachedCheckpoint = some 2) :
    Strays mainnet.network t [stray₂, stray₁, mainnet.genesis] := by
  refine ⟨2, [main₂, main₁, mainnet.genesis], reached,
    .child (.child .root rfl (by decide)) rfl (by decide), ?_, rfl, ?_⟩
  · rw [listed]
    exact ⟨_, List.mem_singleton_self _, rfl, rfl⟩
  · rw [Lineage.Comparable]
    decide

end Fork

/-- The branch came first and was pruned: what builds on it is an orphan. -/
theorem pruned_forgotten : ¬ VerdictsSurvive Params.mainnet.network Fork.checkpoints
    [[Fork.stray₁], [Fork.main₁, Fork.main₂], [Fork.stray₂]] := by
  intro survive
  have orphan : Fork.pruned.verdictOn Params.mainnet.network Fork.stray₂ = some .orphanHeader := by
    decide +kernel
  have strays := Fork.strays (t := Fork.pruned) (run_checkpoints _ _ _) (by decide +kernel)
  have refused := survive
    (HeaderTree.offers Params.mainnet.network Fork.checkpoints
      [[Fork.stray₁], [Fork.main₁, Fork.main₂]])
    Fork.pruned Fork.stray₂ [Fork.stray₁, Params.mainnet.genesis] [] rfl Fork.branch strays
    (by decide) (by decide +kernel)
  rw [HeaderTree.refuses, orphan] at refused
  cases refused

/-- The branch came second and was refused: so is what builds on it. -/
theorem run_verdicts_fork :
    Fork.refused.refuses Params.mainnet.network Fork.stray₂ = true := by
  have strays := Fork.strays (t := Fork.refused) (run_checkpoints _ _ _) (by decide +kernel)
  have offer : HeaderTree.offers Params.mainnet.network Fork.checkpoints
      [[Fork.main₁, Fork.main₂], [Fork.stray₁], [Fork.stray₂]] =
        HeaderTree.offers Params.mainnet.network Fork.checkpoints
          [[Fork.main₁, Fork.main₂], [Fork.stray₁]] ++ (Fork.refused, Fork.stray₂) :: [] := rfl
  obtain ⟨refused, -, remembered⟩ :=
    run_verdicts _ _ (by decide) _ offer Fork.branch strays
  rw [refused]
  left
  rw [remembered (by decide +kernel)]
  right
  decide +kernel

end P2PObserver
