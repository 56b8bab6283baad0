import P2PObserver.HeaderTree.Refusals
import P2PObserver.Lib.Recency
import P2PObserver.Lib.Run

/-! # What the refusal memory forgets

The two maps of the memory are one queue of refused blocks. Recording a refusal and
inheriting from one are its uses; the memory holds the blocks used last.
-/

namespace P2PObserver

variable {H : Type} [LinearOrder H] {net : Network H}

namespace HeaderTree

/-! ## The queue -/

/-- The refused blocks, the next to be forgotten first. -/
def refusalQueue (t : HeaderTree H) : List H := (HashMap.inOrder t.rejectedOrder).map Sigma.snd

/-- The two maps say the same, and no sequence number is still to come. -/
structure Inverse (t : HeaderTree H) : Prop where
  lookup_iff : ∀ seq hash, t.rejectedOrder.lookup seq = some hash ↔
    ∃ reason, t.rejected.lookup hash = some (reason, seq)
  issued : ∀ seq hash, t.rejectedOrder.lookup seq = some hash → seq ≤ t.rejectedSeq

namespace Inverse

variable {t : HeaderTree H} {seq : Nat} {hash : H}

theorem of_sameRefusals {t' : HeaderTree H} (I : t.Inverse) (same : SameRefusals t t') :
    t'.Inverse := by
  constructor
  · rw [same.rejected, same.rejectedOrder]
    exact I.lookup_iff
  · rw [same.rejectedOrder, same.rejectedSeq]
    exact I.issued

theorem seq_unique {seq' : Nat} (I : t.Inverse) (found : t.rejectedOrder.lookup seq = some hash)
    (found' : t.rejectedOrder.lookup seq' = some hash) : seq = seq' := by
  obtain ⟨reason, refused⟩ := (I.lookup_iff _ _).mp found
  obtain ⟨reason', refused'⟩ := (I.lookup_iff _ _).mp found'
  rw [refused] at refused'
  exact (Prod.mk.inj (Option.some.inj refused')).2

theorem mem_refusalQueue (I : t.Inverse) : hash ∈ t.refusalQueue ↔ hash ∈ t.rejected := by
  rw [refusalQueue, List.mem_map, HashMap.mem_iff_lookup]
  constructor
  · intro ⟨e, inside, same⟩
    obtain ⟨reason, refused⟩ := (I.lookup_iff e.1 hash).mp (same ▸ HashMap.mem_inOrder.mp inside)
    exact ⟨_, refused⟩
  · intro ⟨refusal, refused⟩
    have queued := (I.lookup_iff refusal.2 hash).mpr ⟨refusal.1, refused⟩
    exact ⟨⟨refusal.2, hash⟩, HashMap.mem_inOrder.mpr queued, rfl⟩

theorem refusalQueue_nodup (I : t.Inverse) : t.refusalQueue.Nodup := by
  refine List.pairwise_map.mpr ((HashMap.inOrder_pairwise _).imp_of_mem ?_)
  intro e f inside inside' lt same
  have early := HashMap.mem_inOrder.mp inside
  rw [same] at early
  exact absurd (I.seq_unique early (HashMap.mem_inOrder.mp inside')) lt.ne

omit [LinearOrder H] in
theorem size_rejectedOrder (t : HeaderTree H) :
    HashMap.size t.rejectedOrder = t.refusalQueue.length := by
  rw [refusalQueue, List.length_map, HashMap.length_inOrder]

theorem size_rejected (I : t.Inverse) : HashMap.size t.rejected = t.refusalQueue.length := by
  have perm : t.rejected.keys.Perm t.refusalQueue := by
    refine (List.perm_ext_iff_of_nodup t.rejected.keys_nodup I.refusalQueue_nodup).mpr ?_
    exact fun hash => AList.mem_keys.symm.trans I.mem_refusalQueue.symm
  rw [← perm.length_eq]
  exact (List.length_map ..).symm

/-- Dropping one refusal from both maps takes it out of the queue. -/
theorem forget (I : t.Inverse) (found : t.rejectedOrder.lookup seq = some hash) :
    ({ t with rejectedOrder := t.rejectedOrder.erase seq, rejected := t.rejected.erase hash }
        : HeaderTree H).Inverse ∧
      ({ t with rejectedOrder := t.rejectedOrder.erase seq, rejected := t.rejected.erase hash }
        : HeaderTree H).refusalQueue = t.refusalQueue.erase hash := by
  constructor
  · constructor
    · intro seq' hash'
      simp only [HashMap.lookup_erase_iff, I.lookup_iff]
      constructor
      · intro ⟨other, reason, refused⟩
        refine ⟨reason, fun same => other ?_, refused⟩
        subst same
        exact I.seq_unique ((I.lookup_iff _ _).mpr ⟨reason, refused⟩) found
      · intro ⟨reason, other, refused⟩
        refine ⟨fun same => other ?_, reason, refused⟩
        subst same
        have queued := (I.lookup_iff _ _).mpr ⟨reason, refused⟩
        exact Option.some.inj (queued.symm.trans found)
    · intro seq' hash' left
      exact I.issued seq' hash' (HashMap.lookup_erase_iff.mp left).2
  · have inside : (⟨seq, hash⟩ : Sigma fun _ : Nat => H) ∈ HashMap.inOrder t.rejectedOrder :=
      HashMap.mem_inOrder.mpr found
    obtain ⟨before, after, split⟩ := List.append_of_mem inside
    have distinct := I.refusalQueue_nodup
    rw [refusalQueue, split, List.map_append, List.map_cons] at distinct
    have apart : hash ∉ before.map Sigma.snd := fun early =>
      (List.nodup_append.mp distinct).2.2 hash early hash List.mem_cons_self rfl
    simp only [refusalQueue, HashMap.inOrder_erase split]
    rw [split, List.map_append, List.map_append, List.map_cons,
      List.erase_append_right _ apart, List.erase_cons_head]

/-- Writing one to both maps under a new number puts it at the end. -/
theorem record (I : t.Inverse) (new : hash ∉ t.rejected) (later : t.rejectedSeq < seq)
    (reason : HeaderError) :
    ({ t with
        rejectedSeq := seq
        rejected := t.rejected.insert hash (reason, seq)
        rejectedOrder := t.rejectedOrder.insert seq hash } : HeaderTree H).Inverse ∧
      ({ t with
        rejectedSeq := seq
        rejected := t.rejected.insert hash (reason, seq)
        rejectedOrder := t.rejectedOrder.insert seq hash } : HeaderTree H).refusalQueue =
          t.refusalQueue ++ [hash] := by
  have below : ∀ seq' hash', t.rejectedOrder.lookup seq' = some hash' → seq' < seq :=
    fun seq' hash' queued => (I.issued seq' hash' queued).trans_lt later
  constructor
  · constructor
    · intro seq' hash'
      simp only [HashMap.lookup_insert_iff]
      constructor
      · intro either
        rcases either with ⟨rfl, rfl⟩ | ⟨other, queued⟩
        · exact ⟨reason, .inl ⟨rfl, rfl⟩⟩
        · obtain ⟨reason', refused⟩ := (I.lookup_iff _ _).mp queued
          refine ⟨reason', .inr ⟨fun same => new ?_, refused⟩⟩
          exact same ▸ HashMap.mem_iff_lookup.mpr ⟨_, refused⟩
      · intro ⟨reason', either⟩
        rcases either with ⟨rfl, same⟩ | ⟨other, refused⟩
        · exact .inl ⟨(Prod.mk.inj same).2, rfl⟩
        · have queued := (I.lookup_iff _ _).mpr ⟨reason', refused⟩
          exact .inr ⟨(below _ _ queued).ne, queued⟩
    · intro seq' hash' queued
      rcases HashMap.lookup_insert_iff.mp queued with ⟨rfl, -⟩ | ⟨-, before⟩
      · exact le_rfl
      · exact (below _ _ before).le
  · simp only [refusalQueue, HashMap.inOrder_insert below, List.map_append, List.map_cons,
      List.map_nil]

end Inverse

/-- The loop that forgets keeps the end of the queue. -/
theorem forgetOldest_spec {fuel : Nat} {t : HeaderTree H} (I : t.Inverse)
    (enough : t.refusalQueue.length ≤ fuel + REJECTED_REMEMBERED) :
    (t.forgetOldest fuel).Inverse ∧
      (t.forgetOldest fuel).refusalQueue = t.refusalQueue.rtake REJECTED_REMEMBERED := by
  induction fuel generalizing t with
  | zero =>
      have fits : t.refusalQueue.length ≤ REJECTED_REMEMBERED := by omega
      exact ⟨I, (Recency.rtake_of_length_le fits).symm⟩
  | succ fuel ih =>
      unfold forgetOldest
      rw [I.size_rejected]
      split
      · rename_i full
        cases listed : HashMap.inOrder t.rejectedOrder with
        | nil => simp [refusalQueue, listed] at full
        | cons oldest rest =>
            have found : t.rejectedOrder.lookup oldest.1 = some oldest.2 :=
              HashMap.mem_inOrder.mp (by simp [listed])
            have queue : t.refusalQueue = oldest.2 :: rest.map Sigma.snd := by
              rw [refusalQueue, listed, List.map_cons]
            rw [HashMap.min_keys_of_inOrder listed]
            simp only [found]
            obtain ⟨I', queue'⟩ := I.forget found
            rw [queue, List.erase_cons_head] at queue'
            rw [queue, List.length_cons] at enough full
            obtain ⟨inverse, kept⟩ := ih I' (by rw [queue']; omega)
            refine ⟨inverse, ?_⟩
            have cut : ([oldest.2] ++ rest.map Sigma.snd).rtake REJECTED_REMEMBERED =
                (rest.map Sigma.snd).rtake REJECTED_REMEMBERED :=
              Recency.rtake_append_of_le (by omega)
            rw [kept, queue', queue]
            exact cut.symm
      · rename_i fits
        exact ⟨I, (Recency.rtake_of_length_le (Nat.not_lt.mp fits)).symm⟩

variable {t : HeaderTree H} {hash : H}

theorem forgetOldest_seq (fuel : Nat) (t : HeaderTree H) :
    (t.forgetOldest fuel).rejectedSeq = t.rejectedSeq := by
  induction fuel generalizing t with
  | zero => rfl
  | succ fuel ih =>
      unfold forgetOldest
      split
      · split
        · rfl
        · split
          · rfl
          · exact ih _
      · rfl

theorem rememberRejected_seq (new : hash ∉ t.rejected) (reason : HeaderError) :
    (t.rememberRejected hash reason).rejectedSeq = (t.rejectedSeq + 1) % 2 ^ 64 := by
  rw [rememberRejected, if_neg new]
  exact forgetOldest_seq _ _

theorem touchRejected_seq (t : HeaderTree H) (hash : H) :
    (t.touchRejected hash).rejectedSeq = (t.rejectedSeq + 1) % 2 ^ 64 := by
  unfold touchRejected
  simp only
  split <;> rfl

theorem rememberRejected_spec (I : t.Inverse) (new : hash ∉ t.rejected)
    (unwrapped : t.rejectedSeq + 1 < 2 ^ 64) (reason : HeaderError) :
    (t.rememberRejected hash reason).Inverse ∧
      (t.rememberRejected hash reason).refusalQueue =
        (t.refusalQueue ++ [hash]).rtake REJECTED_REMEMBERED := by
  obtain ⟨I', queue⟩ := I.record new (Nat.lt_succ_self _) reason
  have spec := forgetOldest_spec I' (Nat.le_add_right_of_le (Inverse.size_rejectedOrder _).ge)
  rw [queue] at spec
  simp only [rememberRejected, if_neg new, nextRejectedSeq, Nat.mod_eq_of_lt unwrapped]
  exact spec

theorem touchRejected_spec (I : t.Inverse) (member : hash ∈ t.rejected)
    (unwrapped : t.rejectedSeq + 1 < 2 ^ 64) :
    (t.touchRejected hash).Inverse ∧
      (t.touchRejected hash).refusalQueue = t.refusalQueue.erase hash ++ [hash] := by
  obtain ⟨⟨reason, previous⟩, refused⟩ := HashMap.mem_iff_lookup.mp member
  obtain ⟨I', queue⟩ := I.forget ((I.lookup_iff _ _).mpr ⟨reason, refused⟩)
  have gone : hash ∉ t.rejected.erase hash := by simp [AList.mem_erase]
  obtain ⟨I'', queue'⟩ := I'.record gone (Nat.lt_succ_self _) reason
  simp only [HashMap.insert_erase] at I'' queue'
  simp only [touchRejected, nextRejectedSeq, refused, Nat.mod_eq_of_lt unwrapped]
  exact ⟨I'', queue'.trans (congrArg (· ++ [hash]) queue)⟩

/-! ## Uses -/

/-- The tree lacks the header and its parent. -/
def Unplaced (net : Network H) (t : HeaderTree H) (header : Header H) : Prop :=
  net.blockHash header ∉ t.headers ∧ header.prevBlockhash ∉ t.headers

instance (net : Network H) (t : HeaderTree H) (header : Header H) :
    Decidable (Unplaced net t header) :=
  inferInstanceAs (Decidable (_ ∧ _))

/-- The header goes the way of its parent, which the tree remembers having refused. -/
def Inherits (net : Network H) (t : HeaderTree H) (header : Header H) : Prop :=
  Unplaced net t header ∧ header.prevBlockhash ∈ t.rejected

instance (net : Network H) (t : HeaderTree H) (header : Header H) :
    Decidable (Inherits net t header) :=
  inferInstanceAs (Decidable (_ ∧ _))

/-- The refusals an offered header makes use of: the one it inherits from, then the one
    recorded for it. -/
def usesOf (net : Network H) (offer : HeaderTree H × Header H) : List H :=
  (if Inherits net offer.1 offer.2 then [offer.2.prevBlockhash] else []) ++
    if net.blockHash offer.2 ∉ offer.1.rejected ∧
        net.blockHash offer.2 ∈ (offer.1.insertInner net offer.2).1.rejected then
      [net.blockHash offer.2]
    else []

/-- Every use of a refusal, oldest first. -/
def uses (net : Network H) (offered : List (HeaderTree H × Header H)) : List H :=
  offered.flatMap (usesOf net)

/-- The insertion does not take the sequence counter through zero. -/
def Unwrapped (net : Network H) (offer : HeaderTree H × Header H) : Prop :=
  offer.1.rejectedSeq ≤ (offer.1.insertInner net offer.2).1.rejectedSeq

instance (net : Network H) (offer : HeaderTree H × Header H) : Decidable (Unwrapped net offer) :=
  inferInstanceAs (Decidable (_ ≤ _))

theorem succ_lt_of_le_mod {seq : Nat} (le : seq ≤ (seq + 1) % 2 ^ 64) : seq + 1 < 2 ^ 64 := by
  omega

theorem add_two_lt_of_le_mod {seq : Nat} (le : seq ≤ ((seq + 1) % 2 ^ 64 + 1) % 2 ^ 64) :
    seq + 2 < 2 ^ 64 := by
  omega

/-- What an insertion does to the memory. -/
inductive MemoryStep (net : Network H) (t : HeaderTree H) (header : Header H) :
    HeaderTree H → Except HeaderError Bool → Prop where
  | untouched {t' : HeaderTree H} {result : Except HeaderError Bool} :
    SameRefusals t t' → ¬ Inherits net t header → MemoryStep net t header t' result
  | recorded (reason : HeaderError) : ¬ Inherits net t header →
    MemoryStep net t header (t.rememberRejected (net.blockHash header) reason) (.error reason)
  | inherited {reason : HeaderError} : Inherits net t header →
    t.rejectionOf header.prevBlockhash = some reason →
    MemoryStep net t header ((t.touchRejected header.prevBlockhash).rememberRejected
      (net.blockHash header) reason) (.error reason)

theorem rejectionOf_isSome : (t.rejectionOf hash).isSome ↔ hash ∈ t.rejected := by
  rw [rejectionOf, Option.isSome_map, AList.lookup_isSome]

theorem memoryStep (net : Network H) (t : HeaderTree H) (header : Header H) :
    MemoryStep net t header (t.insertInner net header).1 (t.insertInner net header).2 := by
  by_cases known : net.blockHash header ∈ t.headers
  · rw [insertInner, if_pos known]
    exact .untouched (.refl t) fun inherits => inherits.1.1 known
  · rw [insertInner, if_neg known]
    cases held : t.headers.lookup header.prevBlockhash with
    | some parent =>
        have own : ¬ Inherits net t header := fun inherits =>
          inherits.1.2 (AList.lookup_isSome.mp (Option.isSome_of_eq_some held))
        simp only
        split
        · exact .recorded _ own
        · exact .untouched (accept_sameRefusals net t header parent) own
    | none =>
        have orphan : header.prevBlockhash ∉ t.headers := AList.lookup_eq_none.mp held
        simp only [refuseUnplaced]
        cases refused : t.rejectionOf header.prevBlockhash with
        | some reason =>
            have member : header.prevBlockhash ∈ t.rejected :=
              rejectionOf_isSome.mp (Option.isSome_of_eq_some refused)
            exact .inherited ⟨⟨known, orphan⟩, member⟩ refused
        | none =>
            have own : ¬ Inherits net t header := by
              intro inherits
              have heard := rejectionOf_isSome.mpr inherits.2
              rw [refused] at heard
              cases heard
            simp only
            split
            · exact .recorded _ own
            · exact .untouched (.refl t) own

/-- The memory of a tree is the uses of it so far, cut back to its bound. -/
structure Tracks (used : List H) (t : HeaderTree H) : Prop where
  inverse : t.Inverse
  queue : t.refusalQueue = Recency.recent REJECTED_REMEMBERED used
  seq : t.rejectedSeq = used.length

namespace Tracks

variable {used : List H}

theorem mem_iff (T : Tracks used t) :
    hash ∈ t.rejected ↔ hash ∈ Recency.recent REJECTED_REMEMBERED used := by
  rw [← T.queue, T.inverse.mem_refusalQueue]

theorem of_sameRefusals {t' : HeaderTree H} (T : Tracks used t) (same : SameRefusals t t') :
    Tracks used t' where
  inverse := T.inverse.of_sameRefusals same
  queue := by
    rw [refusalQueue, same.rejectedOrder]
    exact T.queue
  seq := same.rejectedSeq.trans T.seq

theorem remember (T : Tracks used t) (new : hash ∉ t.rejected)
    (unwrapped : used.length + 1 < 2 ^ 64) (reason : HeaderError) :
    Tracks (used ++ [hash]) (t.rememberRejected hash reason) := by
  rw [← T.seq] at unwrapped
  obtain ⟨inverse, queue⟩ := rememberRejected_spec T.inverse new unwrapped reason
  have seq := rememberRejected_seq new reason
  rw [Nat.mod_eq_of_lt unwrapped, T.seq] at seq
  refine ⟨inverse, ?_, by simp [seq]⟩
  have absent : hash ∉ Recency.recent REJECTED_REMEMBERED used := fun member =>
    new (T.mem_iff.mpr member)
  rw [queue, T.queue, Recency.recent_concat_of_notMem (by decide) absent]

theorem touch (T : Tracks used t) (member : hash ∈ t.rejected)
    (unwrapped : used.length + 1 < 2 ^ 64) : Tracks (used ++ [hash]) (t.touchRejected hash) := by
  rw [← T.seq] at unwrapped
  obtain ⟨inverse, queue⟩ := touchRejected_spec T.inverse member unwrapped
  have seq := touchRejected_seq t hash
  rw [Nat.mod_eq_of_lt unwrapped, T.seq] at seq
  refine ⟨inverse, ?_, by simp [seq]⟩
  rw [queue, T.queue, Recency.recent_concat_of_mem (T.mem_iff.mp member)]

/-- A refusal that is recorded is remembered. -/
theorem recorded (T : Tracks used t) (new : hash ∉ t.rejected)
    (unwrapped : used.length + 1 < 2 ^ 64) (reason : HeaderError) :
    hash ∈ (t.rememberRejected hash reason).rejected :=
  (T.remember new unwrapped reason).mem_iff.mpr (Recency.mem_recent_concat (by decide))

theorem mem_touchRejected {other : H} :
    other ∈ (t.touchRejected hash).rejected ↔ other ∈ t.rejected := by
  rw [← rejectionOf_isSome, ← rejectionOf_isSome, rejectionOf_touchRejected]

/-- The parent first, then the child. -/
theorem touch_remember {parent : H} (T : Tracks used t) (member : parent ∈ t.rejected)
    (new : hash ∉ t.rejected) {reason : HeaderError}
    (unwrapped : t.rejectedSeq ≤
      ((t.touchRejected parent).rememberRejected hash reason).rejectedSeq) :
    Tracks (used ++ [parent] ++ [hash]) ((t.touchRejected parent).rememberRejected hash reason) := by
  have new' : hash ∉ (t.touchRejected parent).rejected :=
    fun touched => new (mem_touchRejected.mp touched)
  rw [rememberRejected_seq new', touchRejected_seq] at unwrapped
  have short : used.length + 2 < 2 ^ 64 := T.seq ▸ add_two_lt_of_le_mod unwrapped
  have room : (used ++ [parent]).length + 1 < 2 ^ 64 := by simpa using short
  exact (T.touch member (by omega)).remember new' room reason

/-- An insertion adds its uses. -/
theorem insertInner {header : Header H} (T : Tracks used t) (unwrapped : Unwrapped net (t, header)) :
    Tracks (used ++ usesOf net (t, header)) (t.insertInner net header).1 := by
  have step := memoryStep net t header
  rw [usesOf]
  rw [Unwrapped] at unwrapped
  generalize (t.insertInner net header).1 = t', (t.insertInner net header).2 = result
    at step unwrapped ⊢
  simp only at unwrapped ⊢
  cases step with
  | untouched same own =>
      have kept : ¬ (net.blockHash header ∉ t.rejected ∧ net.blockHash header ∈ t'.rejected) := by
        rw [same.rejected]
        exact fun both => both.1 both.2
      rw [if_neg own, if_neg kept, List.append_nil, List.append_nil]
      exact T.of_sameRefusals same
  | recorded reason own =>
      rw [if_neg own, List.nil_append]
      by_cases known : net.blockHash header ∈ t.rejected
      · rw [if_neg (fun both => both.1 known), List.append_nil, rememberRejected, if_pos known]
        exact T
      · rw [rememberRejected_seq known] at unwrapped
        have short : used.length + 1 < 2 ^ 64 := T.seq ▸ succ_lt_of_le_mod unwrapped
        rw [if_pos ⟨known, T.recorded known short reason⟩]
        exact T.remember known short reason
  | inherited inherits refused =>
      rw [if_pos inherits]
      by_cases known : net.blockHash header ∈ t.rejected
      · have known' : net.blockHash header ∈ (t.touchRejected header.prevBlockhash).rejected :=
          mem_touchRejected.mpr known
        rw [if_neg (fun both => both.1 known), List.append_nil]
        rw [rememberRejected, if_pos known'] at unwrapped ⊢
        rw [touchRejected_seq] at unwrapped
        exact T.touch inherits.2 (T.seq ▸ succ_lt_of_le_mod unwrapped)
      · have T' := T.touch_remember inherits.2 known unwrapped
        have stored := T'.mem_iff.mpr (Recency.mem_recent_concat (by decide))
        rw [if_pos ⟨known, stored⟩, ← List.append_assoc]
        exact T'

/-- A header refused for its parent's sake leaves both remembered. -/
theorem inherits {header : Header H} {reason : HeaderError} (T : Tracks used t)
    (unwrapped : Unwrapped net (t, header)) (unplaced : Unplaced net t header)
    (refused : t.rejectionOf header.prevBlockhash = some reason) :
    (t.insertInner net header).2 = .error reason ∧
      (t.insertInner net header).1.rejectionOf header.prevBlockhash = some reason ∧
      (t.insertInner net header).1.rejectionOf (net.blockHash header) =
        some ((t.rejectionOf (net.blockHash header)).getD reason) := by
  have member : header.prevBlockhash ∈ t.rejected :=
    rejectionOf_isSome.mp (Option.isSome_of_eq_some refused)
  have step := memoryStep net t header
  rw [Unwrapped] at unwrapped
  generalize (t.insertInner net header).1 = t', (t.insertInner net header).2 = result
    at step unwrapped ⊢
  simp only at unwrapped ⊢
  cases step with
  | untouched same own => exact absurd ⟨unplaced, member⟩ own
  | recorded reason own => exact absurd ⟨unplaced, member⟩ own
  | inherited own again =>
      obtain rfl := Option.some.inj (again.symm.trans refused)
      refine ⟨rfl, ?_⟩
      by_cases known : net.blockHash header ∈ t.rejected
      · have known' : net.blockHash header ∈ (t.touchRejected header.prevBlockhash).rejected :=
          mem_touchRejected.mpr known
        obtain ⟨before, found⟩ := Option.isSome_iff_exists.mp (rejectionOf_isSome.mpr known)
        rw [rememberRejected, if_pos known', rejectionOf_touchRejected, rejectionOf_touchRejected,
          found]
        exact ⟨refused, rfl⟩
      · have T' := T.touch_remember member known unwrapped
        have unheard : t.rejectionOf (net.blockHash header) = none := by
          rw [← Option.not_isSome_iff_eq_none, rejectionOf_isSome]
          exact known
        rw [unheard]
        constructor
        · have stored := T'.mem_iff.mpr (Recency.mem_recent_concat_concat (by decide) _)
          obtain ⟨kept, found⟩ := Option.isSome_iff_exists.mp (rejectionOf_isSome.mpr stored)
          rw [found]
          cases rejectionOf_rememberRejected found with
          | inl before =>
              rw [rejectionOf_touchRejected, refused] at before
              exact before.symm
          | inr new => rw [new.2]
        · have stored := T'.mem_iff.mpr (Recency.mem_recent_concat (by decide))
          obtain ⟨kept, found⟩ := Option.isSome_iff_exists.mp (rejectionOf_isSome.mpr stored)
          rw [found]
          cases rejectionOf_rememberRejected found with
          | inl before =>
              rw [rejectionOf_touchRejected, unheard] at before
              cases before
          | inr new => rw [new.2, Option.getD_none]

end Tracks

/-! ## Runs -/

/-- Each header is a child of what the one before it is a child of, or of the one before
    it. -/
def BuildsOn (net : Network H) :
    HeaderTree H × Header H → List (HeaderTree H × Header H) → Prop
  | _, [] => True
  | last, next :: rest =>
      (next.2.prevBlockhash = last.2.prevBlockhash ∨
        next.2.prevBlockhash = net.blockHash last.2) ∧ BuildsOn net next rest

/-- The memory of a tree, and what it did with each header the tree was offered. -/
structure RefusalMemory (net : Network H) (offered : List (HeaderTree H × Header H))
    (t : HeaderTree H) : Prop where
  inverse : ∀ seq hash, t.rejectedOrder.lookup seq = some hash ↔
    ∃ reason, t.rejected.lookup hash = some (reason, seq)
  bounded : HashMap.size t.rejected ≤ REJECTED_REMEMBERED ∧
    HashMap.size t.rejectedOrder ≤ REJECTED_REMEMBERED
  recent : t.refusalQueue = Recency.recent REJECTED_REMEMBERED (uses net offered)
  forgets : ∀ before offer after, offered = before ++ offer :: after → ∀ older newer,
    older ∈ offer.1.rejected → older ∉ (offer.1.insertInner net offer.2).1.rejected →
    newer ∈ (offer.1.insertInner net offer.2).1.rejected →
    Recency.UsedBefore older newer (uses net (before ++ [offer]))
  inherits : ∀ offer ∈ offered, ∀ reason, Unplaced net offer.1 offer.2 →
    offer.1.rejectionOf offer.2.prevBlockhash = some reason →
    (offer.1.insertInner net offer.2).2 = .error reason ∧
      (offer.1.insertInner net offer.2).1.rejectionOf offer.2.prevBlockhash = some reason ∧
      (offer.1.insertInner net offer.2).1.rejectionOf (net.blockHash offer.2) =
        some ((offer.1.rejectionOf (net.blockHash offer.2)).getD reason)
  branch : ∀ before first more after reason, offered = before ++ first :: (more ++ after) →
    first.1.rejectionOf first.2.prevBlockhash = some reason → BuildsOn net first more →
    (∀ offer ∈ first :: more, Unplaced net offer.1 offer.2 ∧
      (offer.1.rejectionOf (net.blockHash offer.2)).getD reason = reason) →
    ∀ offer ∈ first :: more, (offer.1.insertInner net offer.2).2 = .error reason

/-- A tree on its way through a run, after what was offered before it. -/
structure Reaches (net : Network H) (before : List (HeaderTree H × Header H)) (t : HeaderTree H) :
    Prop where
  tracks : Tracks (uses net before) t
  follows : ∀ last, before.getLast? = some last →
    t.rejected = (last.1.insertInner net last.2).1.rejected

theorem run_reaches (net : Network H) (checkpoints : List (Checkpoint H))
    (batches : List (List (Header H)))
    (unwrapped : ∀ offer ∈ offers net checkpoints batches, Unwrapped net offer) :
    Reaches net (offers net checkpoints batches) (run net checkpoints batches) ∧
      ∀ before offer after, offers net checkpoints batches = before ++ offer :: after →
        Reaches net before offer.1 := by
  refine run_induct net checkpoints (P := fun t offered =>
    (∀ offer ∈ offered, Unwrapped net offer) → Reaches net offered t ∧
      ∀ before offer after, offered = before ++ offer :: after → Reaches net before offer.1)
    ?start ?step ?rebuild batches unwrapped
  case start =>
    intro _
    have same := noteCheckpoint_sameRefusals
      { new net with checkpoints := checkpoints.insertionSort fun c d => c.height ≤ d.height }
      (net.blockHash net.genesis) 0
    have empty : Tracks ([] : List H) { new net with
        checkpoints := checkpoints.insertionSort fun c d => c.height ≤ d.height } := by
      constructor
      · constructor
        · intro seq hash
          simp [new]
        · intro seq hash found
          simp [new] at found
      · rw [Recency.recent_nil]
        rfl
      · rfl
    exact ⟨⟨empty.of_sameRefusals same, by simp⟩, by simp⟩
  case step =>
    intro t offered header ih unwrapped
    obtain ⟨here, earlier⟩ := ih fun offer member => unwrapped offer (List.mem_append_left _ member)
    have own : Unwrapped net (t, header) := unwrapped _ (by simp)
    refine ⟨⟨?_, ?_⟩, ?_⟩
    · have next := here.tracks.insertInner own
      simpa [uses] using next
    · intro last at_end
      rw [List.getLast?_concat] at at_end
      rw [← Option.some.inj at_end]
    · intro before offer after split
      rcases Run.concat_eq_split split with ⟨rfl, rfl, -⟩ | ⟨rest, -, same⟩
      · exact here
      · exact earlier before offer rest same
  case rebuild =>
    intro t offered bestChain ih unwrapped
    obtain ⟨here, earlier⟩ := ih unwrapped
    exact ⟨⟨here.tracks.of_sameRefusals ⟨rfl, rfl, rfl, rfl⟩, here.follows⟩, earlier⟩

/-- Every header of a branch of refusals is refused for the reason the branch began with. -/
theorem refused_along {offered : List (HeaderTree H × Header H)}
    (reaches : ∀ before offer after, offered = before ++ offer :: after →
      Reaches net before offer.1)
    (unwrapped : ∀ offer ∈ offered, Unwrapped net offer) {reason : HeaderError}
    (more : List (HeaderTree H × Header H)) :
    ∀ before first after, offered = before ++ first :: (more ++ after) →
      first.1.rejectionOf first.2.prevBlockhash = some reason → BuildsOn net first more →
      (∀ offer ∈ first :: more, Unplaced net offer.1 offer.2 ∧
        (offer.1.rejectionOf (net.blockHash offer.2)).getD reason = reason) →
      ∀ offer ∈ first :: more, (offer.1.insertInner net offer.2).2 = .error reason := by
  induction more with
  | nil =>
      intro before first after split refused _ apart offer member
      obtain rfl := List.mem_singleton.mp member
      have own := unwrapped offer (by simp [split])
      exact ((reaches _ _ _ split).tracks.inherits own (apart _ List.mem_cons_self).1 refused).1
  | cons next rest ih =>
      intro before first after split refused builds apart offer member
      have own := unwrapped first (by simp [split])
      have first_apart := apart first List.mem_cons_self
      obtain ⟨said, parent, child⟩ :=
        (reaches _ _ _ split).tracks.inherits own first_apart.1 refused
      rw [first_apart.2] at child
      have split' : offered = (before ++ [first]) ++ next :: (rest ++ after) := by
        simp [split]
      have same : next.1.rejected = (first.1.insertInner net first.2).1.rejected :=
        (reaches _ _ _ split').follows first List.getLast?_concat
      have refused' : next.1.rejectionOf next.2.prevBlockhash = some reason := by
        rw [rejectionOf, same]
        cases builds.1 with
        | inl sibling => exact sibling ▸ parent
        | inr upon => exact upon ▸ child
      cases List.mem_cons.mp member with
      | inl here => exact here ▸ said
      | inr later =>
          exact ih _ next after split' refused' builds.2
            (fun offer member => apart offer (List.mem_cons_of_mem _ member)) offer later

/-- In every run whose sequence counter does not wrap. -/
theorem run_refusalMemory (net : Network H) (checkpoints : List (Checkpoint H))
    (batches : List (List (Header H)))
    (unwrapped : ∀ offer ∈ offers net checkpoints batches, Unwrapped net offer) :
    RefusalMemory net (offers net checkpoints batches) (run net checkpoints batches) := by
  obtain ⟨here, earlier⟩ := run_reaches net checkpoints batches unwrapped
  have T := here.tracks
  have length : (run net checkpoints batches).refusalQueue.length ≤ REJECTED_REMEMBERED := by
    rw [T.queue]
    exact Recency.length_recent_le ..
  constructor
  case inverse => exact T.inverse.lookup_iff
  case bounded =>
    rw [T.inverse.size_rejected, Inverse.size_rejectedOrder]
    exact ⟨length, length⟩
  case recent => exact T.queue
  case forgets =>
    intro before offer after split older newer was gone kept
    have own := unwrapped offer (by simp [split])
    have T₀ := (earlier _ _ _ split).tracks
    have T₁ := T₀.insertInner own
    have all : uses net (before ++ [offer]) = uses net before ++ usesOf net offer := by
      simp [uses]
    rw [all]
    have used : older ∈ uses net before ++ usesOf net offer :=
      List.mem_append_left _ (Recency.mem_uses_of_recent (T₀.mem_iff.mp was))
    rw [T₁.mem_iff] at gone kept
    exact Recency.usedBefore_of_recent used gone kept
  case inherits =>
    intro offer member reason unplaced refused
    obtain ⟨before, after, split⟩ := List.append_of_mem member
    exact (earlier _ _ _ split).tracks.inherits (unwrapped offer member) unplaced refused
  case branch =>
    intro before first more after reason
    exact refused_along earlier unwrapped more before first after

end HeaderTree

/-! ## A refusal that keeps its first reason -/

/-- After every refusal by inheritance the header and its parent are remembered for the
    same reason. -/
def InheritsAlike (net : Network H) (offered : List (HeaderTree H × Header H)) : Prop :=
  ∀ offer ∈ offered, HeaderTree.Inherits net offer.1 offer.2 →
    let after := (offer.1.insertInner net offer.2).1
    (after.rejectionOf offer.2.prevBlockhash).isSome = true ∧
      after.rejectionOf (net.blockHash offer.2) = after.rejectionOf offer.2.prevBlockhash

instance (net : Network H) (offered : List (HeaderTree H × Header H)) :
    Decidable (InheritsAlike net offered) :=
  inferInstanceAs (Decidable (∀ _ ∈ _, _ → _ ∧ _))

/-- A block at the checkpoint's height that is not the checkpoint's, its parent, and the
    chain that has the checkpoint. -/
def strayParent : Header (List Nat) := Params.mine Params.mainnet.genesis 71 1231006600 0x1d00ffff

def strayBlock : Header (List Nat) := Params.mine strayParent 72 1231006700 0x1d00ffff

def chainParent : Header (List Nat) := Params.mine Params.mainnet.genesis 73 1231006600 0x1d00ffff

def chainBlock : Header (List Nat) := Params.mine chainParent 74 1231006700 0x1d00ffff

def strayOffers : List (HeaderTree (List Nat) × Header (List Nat)) :=
  HeaderTree.offers Params.mainnet.network [⟨2, Params.blockHash chainBlock⟩]
    [[strayParent, strayBlock], [chainParent, chainBlock], [strayParent, strayBlock]]

/-- The stray block is refused for missing the checkpoint, then for its parent's fork below
    it, and stays remembered for the first. -/
theorem stray_keeps_reason : ¬ InheritsAlike Params.mainnet.network strayOffers := by
  decide +kernel

theorem stray_refusalMemory :
    HeaderTree.RefusalMemory Params.mainnet.network strayOffers
      (HeaderTree.run Params.mainnet.network [⟨2, Params.blockHash chainBlock⟩]
        [[strayParent, strayBlock], [chainParent, chainBlock], [strayParent, strayBlock]]) := by
  apply HeaderTree.run_refusalMemory
  decide +kernel

end P2PObserver
