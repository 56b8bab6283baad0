import Mathlib.Data.Set.Insert
import P2PObserver.HeaderTree.Insert

/-! # The tree as a set of branches

What the tree is for, without maps, hashes or walks: a set of branches closed
under dropping the newest header. Whether a header may extend a branch depends on
that branch and the checkpoints alone, so the rules are stated here once and the
map-based code is shown to compute them.
-/

namespace P2PObserver

variable {H : Type}

/-- The bits a header must carry on top of `below` (its ancestors, parent first):
    the retarget at the start of a period, the parent's bits inside one. -/
def Network.expectedBits (net : Network H) (below : List (Header H)) : Nat :=
  match below, below[PERIOD - 1]? with
  | [], _ => 0
  | parent :: _, some first =>
      if below.length % PERIOD = 0 then net.fromHeaderDifficultyAdjustment first parent
      else parent.bits
  | parent :: _, none => parent.bits

/-- The rules on a header placed on top of `below` that no later event can change. -/
structure Sound (net : Network H) (checkpoints : List (Checkpoint H)) (header : Header H)
    (below : List (Header H)) : Prop where
  target_le : net.target header.bits ≤ net.maxAttainableTarget
  checkpoint : ∀ c ∈ checkpoints, c.height = below.length → c.hash = net.blockHash header
  pow : net.validatePow header (net.target (net.expectedBits below)) = true

/-- A branch every header of which obeys the rules. -/
structure Admissible (net : Network H) (checkpoints : List (Checkpoint H))
    (branch : List (Header H)) : Prop where
  isBranch : net.IsBranch branch
  sound : ∀ n rest, n :: rest <:+ branch → rest ≠ [] → Sound net checkpoints n rest

/-- A branch that ends at a checkpoint block. -/
def IsCheckpoint (net : Network H) (checkpoints : List (Checkpoint H)) :
    List (Header H) → Prop
  | [] => False
  | n :: rest => ∃ c ∈ checkpoints, c.height = rest.length ∧ c.hash = net.blockHash n

/-- The entry the tree keeps for the newest header of a branch. -/
def entryOf (net : Network H) (n : Header H) (rest : List (Header H)) : HeaderEntry H where
  header := n
  height := rest.length
  chainWork := net.chainWork (n :: rest)

/-- Add a branch; reaching a checkpoint drops whatever strays from it. -/
def growWith (net : Network H) (checkpoints : List (Checkpoint H))
    (held : Set (List (Header H))) (branch : List (Header H)) : Set (List (Header H)) :=
  {s | (s ∈ held ∨ s = branch) ∧
    (IsCheckpoint net checkpoints branch → Lineage.Comparable s branch)}

variable {net : Network H} {checkpoints : List (Checkpoint H)}

theorem Network.chainWork_cons (n : Header H) (rest : List (Header H)) :
    net.chainWork (n :: rest) = net.work n + net.chainWork rest := by
  simp [Network.chainWork]

theorem Network.chainWork_le_of_suffix {s b : List (Header H)} (sub : s <:+ b) :
    net.chainWork s ≤ net.chainWork b := by
  obtain ⟨before, rfl⟩ := sub
  simp [Network.chainWork]

/-- A strict tail end of a branch carries strictly less work. -/
theorem Network.chainWork_lt_of_suffix {s b : List (Header H)} (sub : s <:+ b) (ne : s ≠ b) :
    net.chainWork s < net.chainWork b := by
  cases b with
  | nil => exact absurd (List.suffix_nil.mp sub) ne
  | cons n rest =>
      rcases List.suffix_cons_iff.mp sub with rfl | sub
      · exact absurd rfl ne
      · have below := net.chainWork_le_of_suffix sub
        have positive := net.work_pos n
        rw [net.chainWork_cons]
        omega

theorem Network.expectedBits_inside {parent : Header H} {rest : List (Header H)}
    (inside : (parent :: rest).length % PERIOD ≠ 0) :
    net.expectedBits (parent :: rest) = parent.bits := by
  simp only [Network.expectedBits, if_neg inside]
  cases (parent :: rest)[PERIOD - 1]? <;> rfl

theorem Network.expectedBits_retarget {parent first : Header H} {rest : List (Header H)}
    (opens : (parent :: rest).length % PERIOD = 0)
    (at_start : (parent :: rest)[PERIOD - 1]? = some first) :
    net.expectedBits (parent :: rest) = net.fromHeaderDifficultyAdjustment first parent := by
  simp only [Network.expectedBits, at_start, if_pos opens]

namespace Admissible

theorem root : Admissible net checkpoints [net.genesis] where
  isBranch := .root
  sound := by
    intro n rest sub more
    rcases List.suffix_cons_iff.mp sub with eq | sub
    · exact absurd (List.cons.inj eq).2 more
    · simp at sub

theorem suffix {b s : List (Header H)} (h : Admissible net checkpoints b) (sub : s <:+ b)
    (nonempty : s ≠ []) : Admissible net checkpoints s where
  isBranch := h.isBranch.suffix sub nonempty
  sound n rest inside more := h.sound n rest (inside.trans sub) more

theorem cons {n p : Header H} {rest : List (Header H)}
    (below : Admissible net checkpoints (p :: rest)) (link : n.prevBlockhash = net.blockHash p)
    (off : n ≠ net.genesis) (ok : Sound net checkpoints n (p :: rest)) :
    Admissible net checkpoints (n :: p :: rest) where
  isBranch := .child below.isBranch link off
  sound := by
    intro m below' inside more
    rcases List.suffix_cons_iff.mp inside with eq | inside
    · obtain ⟨rfl, rfl⟩ := List.cons.inj eq
      exact ok
    · exact below.sound m below' inside more

/-- A branch at least as tall as a checkpoint passes through it. -/
theorem checkpoint_suffix {b c : List (Header H)} (h : Admissible net checkpoints b)
    (branch : net.IsBranch c) (reached : IsCheckpoint net checkpoints c)
    (le : c.length ≤ b.length) : c <:+ b := by
  obtain ⟨s, sub, length⟩ := h.isBranch.exists_suffix le
  cases c with
  | nil => exact List.nil_suffix
  | cons n rest =>
      obtain ⟨checkpoint, listed, height, hash⟩ := reached
      cases s with
      | nil => simp at length
      | cons m below =>
          have own := h.isBranch.suffix sub (by simp)
          have same : net.blockHash m = net.blockHash n := by
            by_cases bottom : below = []
            · subst bottom
              have top : rest = [] := by simpa using length.symm
              subst top
              cases own
              cases branch
              rfl
            · have height' : checkpoint.height = below.length := by
                simp only [List.length_cons] at length
                omega
              rw [← (h.sound m below sub bottom).checkpoint checkpoint listed height', hash]
          rw [← own.unique_of_key branch same]
          exact sub

/-- Checkpoint branches never fork from one another. -/
theorem comparable_of_checkpoint {b c : List (Header H)} (hb : Admissible net checkpoints b)
    (hc : Admissible net checkpoints c) (reached : IsCheckpoint net checkpoints c)
    (reached' : IsCheckpoint net checkpoints b) : Lineage.Comparable b c := by
  rcases Nat.le_total c.length b.length with le | le
  · exact .inr (hb.checkpoint_suffix hc.isBranch reached le)
  · exact .inl (hc.checkpoint_suffix hb.isBranch reached' le)

end Admissible

end P2PObserver
