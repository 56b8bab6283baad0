import P2PObserver.HeaderTree.Insert

/-! # What each step leaves alone

The refusal memory and the chain are edited by different operations. One lemma
per operation says which half of the tree it does not touch.
-/

namespace P2PObserver.HeaderTree

variable {H : Type}

/-- Two trees that differ at most in what they remember of refusals and of
    requests out. -/
structure SameChain (t t' : HeaderTree H) : Prop where
  headers : t'.headers = t.headers
  bestChain : t'.bestChain = t.bestChain
  tip : t'.tip = t.tip
  tipHeight : t'.tipHeight = t.tipHeight
  tipWork : t'.tipWork = t.tipWork
  dirty : t'.dirty = t.dirty
  checkpoints : t'.checkpoints = t.checkpoints
  reachedCheckpoint : t'.reachedCheckpoint = t.reachedCheckpoint

namespace SameChain

theorem refl (t : HeaderTree H) : SameChain t t :=
  ⟨rfl, rfl, rfl, rfl, rfl, rfl, rfl, rfl⟩

theorem trans {t t' t'' : HeaderTree H} (h : SameChain t t') (h' : SameChain t' t'') :
    SameChain t t'' where
  headers := h'.headers.trans h.headers
  bestChain := h'.bestChain.trans h.bestChain
  tip := h'.tip.trans h.tip
  tipHeight := h'.tipHeight.trans h.tipHeight
  tipWork := h'.tipWork.trans h.tipWork
  dirty := h'.dirty.trans h.dirty
  checkpoints := h'.checkpoints.trans h.checkpoints
  reachedCheckpoint := h'.reachedCheckpoint.trans h.reachedCheckpoint

end SameChain

/-- Two trees with the same checkpoints and the same refusal memory. -/
structure SameRefusals (t t' : HeaderTree H) : Prop where
  checkpoints : t'.checkpoints = t.checkpoints
  rejected : t'.rejected = t.rejected
  rejectedOrder : t'.rejectedOrder = t.rejectedOrder
  rejectedSeq : t'.rejectedSeq = t.rejectedSeq

namespace SameRefusals

theorem refl (t : HeaderTree H) : SameRefusals t t := ⟨rfl, rfl, rfl, rfl⟩

theorem trans {t t' t'' : HeaderTree H} (h : SameRefusals t t') (h' : SameRefusals t' t'') :
    SameRefusals t t'' where
  checkpoints := h'.checkpoints.trans h.checkpoints
  rejected := h'.rejected.trans h.rejected
  rejectedOrder := h'.rejectedOrder.trans h.rejectedOrder
  rejectedSeq := h'.rejectedSeq.trans h.rejectedSeq

end SameRefusals

variable [LinearOrder H]

theorem forgetOldest_sameChain (fuel : Nat) (t : HeaderTree H) :
    SameChain t (t.forgetOldest fuel) := by
  induction fuel generalizing t with
  | zero => exact .refl t
  | succ fuel ih =>
      simp only [forgetOldest]
      split
      · split
        · exact .refl t
        · split
          · exact .refl t
          · refine SameChain.trans ?_ (ih _)
            exact ⟨rfl, rfl, rfl, rfl, rfl, rfl, rfl, rfl⟩
      · exact .refl t

theorem rememberRejected_sameChain (t : HeaderTree H) (hash : H) (reason : HeaderError) :
    SameChain t (t.rememberRejected hash reason) := by
  simp only [rememberRejected]
  split
  · exact .refl t
  · refine SameChain.trans ?_ (forgetOldest_sameChain _ _)
    exact ⟨rfl, rfl, rfl, rfl, rfl, rfl, rfl, rfl⟩

theorem touchRejected_sameChain (t : HeaderTree H) (hash : H) :
    SameChain t (t.touchRejected hash) := by
  simp only [touchRejected]
  split <;> exact ⟨rfl, rfl, rfl, rfl, rfl, rfl, rfl, rfl⟩

theorem refuseUnplaced_sameChain (net : Network H) (t : HeaderTree H) (header : Header H) :
    SameChain t (t.refuseUnplaced net header).1 := by
  simp only [refuseUnplaced]
  split
  · exact (touchRejected_sameChain t _).trans (rememberRejected_sameChain _ _ _)
  · split
    · exact rememberRejected_sameChain t _ _
    · exact .refl t

theorem replaceTip_sameRefusals (t : HeaderTree H) : SameRefusals t t.replaceTip := by
  simp only [replaceTip]
  split
  · exact .refl t
  · split <;> exact ⟨rfl, rfl, rfl, rfl⟩

theorem rebuildBestChain_sameRefusals (t : HeaderTree H) : SameRefusals t t.rebuildBestChain := by
  simp only [rebuildBestChain]
  split <;> exact ⟨rfl, rfl, rfl, rfl⟩

theorem pruneBelowCheckpoint_sameRefusals (t : HeaderTree H) :
    SameRefusals t t.pruneBelowCheckpoint := by
  simp only [pruneBelowCheckpoint]
  split
  · exact .refl t
  · split
    · exact .refl t
    · split
      · refine SameRefusals.trans ?_
          ((replaceTip_sameRefusals _).trans (rebuildBestChain_sameRefusals _))
        exact ⟨rfl, rfl, rfl, rfl⟩
      · exact ⟨rfl, rfl, rfl, rfl⟩

theorem noteCheckpoint_sameRefusals (t : HeaderTree H) (hash : H) (height : Nat) :
    SameRefusals t (t.noteCheckpoint hash height) := by
  simp only [noteCheckpoint]
  split
  · refine SameRefusals.trans ?_ (pruneBelowCheckpoint_sameRefusals _)
    exact ⟨rfl, rfl, rfl, rfl⟩
  · exact .refl t

theorem accept_sameRefusals (net : Network H) (t : HeaderTree H) (header : Header H)
    (parent : HeaderEntry H) : SameRefusals t (t.accept net header parent) := by
  have noted := noteCheckpoint_sameRefusals
    { t with
      headers := t.headers.insert (net.blockHash header)
        ⟨header, parent.height + 1, parent.chainWork + net.work header⟩
      recovery := t.recovery.erase (net.blockHash header) }
    (net.blockHash header) (parent.height + 1)
  simp only [accept]
  split
  · exact ⟨noted.checkpoints, noted.rejected, noted.rejectedOrder, noted.rejectedSeq⟩
  · exact ⟨noted.checkpoints, noted.rejected, noted.rejectedOrder, noted.rejectedSeq⟩

theorem insertInner_checkpoints (net : Network H) (t : HeaderTree H) (header : Header H) :
    (t.insertInner net header).1.checkpoints = t.checkpoints := by
  simp only [insertInner]
  split
  · rfl
  · split
    · exact (refuseUnplaced_sameChain net t header).checkpoints
    · split
      · exact (rememberRejected_sameChain t _ _).checkpoints
      · exact (accept_sameRefusals net t header _).checkpoints

end P2PObserver.HeaderTree
