import Mathlib.Data.List.Infix
import Mathlib.Data.List.Nodup

/-! # Lineages

Nodes that carry a key and name their parent by key, hanging off one root. A
branch lists a node and its ancestors, newest first. Keys are injective, so a
node has at most one branch: everything computed along the branch is a function
of the node.
-/

/-- A universe of nodes, each naming its parent's key, with one distinguished
root whose own parent is never followed. -/
structure Lineage (N K : Type) where
  key : N → K
  parent : N → K
  root : N
  key_injective : Function.Injective key

namespace Lineage

variable {N K : Type} (L : Lineage N K)

/-- A node followed by its ancestors down to the root. -/
inductive IsBranch : List N → Prop
  | root : IsBranch [L.root]
  | child {n p : N} {rest : List N} : IsBranch (p :: rest) → L.parent n = L.key p →
      n ≠ L.root → IsBranch (n :: p :: rest)

/-- Neither list strays from the other: one is the tail end of the other. -/
def Comparable (b c : List N) : Prop := b <:+ c ∨ c <:+ b

variable {L}

namespace IsBranch

theorem ne_nil {b : List N} (h : L.IsBranch b) : b ≠ [] := by
  cases h <;> simp

theorem tail {n : N} {rest : List N} (h : L.IsBranch (n :: rest)) (more : rest ≠ []) :
    L.IsBranch rest := by
  cases h with
  | root => exact absurd rfl more
  | child below => exact below

theorem suffix {b s : List N} (h : L.IsBranch b) (sub : s <:+ b) (nonempty : s ≠ []) :
    L.IsBranch s := by
  induction b with
  | nil => exact absurd (List.suffix_nil.mp sub) nonempty
  | cons n rest ih =>
      rcases List.suffix_cons_iff.mp sub with rfl | sub
      · exact h
      · have more : rest ≠ [] := by
          rintro rfl
          exact nonempty (List.suffix_nil.mp sub)
        exact ih (h.tail more) sub

/-- The parent link and the tail of a branch of more than one node. -/
theorem link {n p : N} {rest : List N} (h : L.IsBranch (n :: p :: rest)) :
    L.parent n = L.key p := by
  cases h with
  | child _ link _ => exact link

theorem ne_root {n p : N} {rest : List N} (h : L.IsBranch (n :: p :: rest)) : n ≠ L.root := by
  cases h with
  | child _ _ off => exact off

/-- A node has one branch. -/
theorem unique {n : N} {rest rest' : List N} (h : L.IsBranch (n :: rest))
    (h' : L.IsBranch (n :: rest')) : rest = rest' := by
  induction rest generalizing n rest' with
  | nil =>
      cases h with
      | root =>
          cases h' with
          | root => rfl
          | child _ _ off => exact absurd rfl off
  | cons p rest ih =>
      cases h with
      | child below link off =>
          cases h' with
          | root => exact absurd rfl off
          | child below' link' _ =>
              obtain rfl := L.key_injective (link.symm.trans link')
              rw [ih below below']

theorem unique_of_key {n n' : N} {rest rest' : List N} (h : L.IsBranch (n :: rest))
    (h' : L.IsBranch (n' :: rest')) (same : L.key n = L.key n') : n :: rest = n' :: rest' := by
  obtain rfl := L.key_injective same
  rw [h.unique h']

/-- A member's own branch is a tail end of any branch it is on. -/
theorem suffix_of_mem {n : N} {rest b : List N} (h : L.IsBranch b) (member : n ∈ b)
    (own : L.IsBranch (n :: rest)) : n :: rest <:+ b := by
  obtain ⟨before, after, rfl⟩ := List.append_of_mem member
  have sub : n :: after <:+ before ++ n :: after := List.suffix_append _ _
  rw [own.unique (h.suffix sub (by simp))]
  exact sub

theorem nodup {b : List N} (h : L.IsBranch b) : b.Nodup := by
  induction h with
  | root => simp
  | @child n p rest below link off ih =>
      refine List.nodup_cons.mpr ⟨fun member => ?_, ih⟩
      have sub := below.suffix_of_mem member (.child below link off)
      have longer := sub.length_le
      simp only [List.length_cons] at longer
      omega

theorem root_mem {b : List N} (h : L.IsBranch b) : L.root ∈ b := by
  induction h with
  | root => simp
  | child _ _ _ ih => exact List.mem_cons_of_mem _ ih

theorem root_suffix {b : List N} (h : L.IsBranch b) : [L.root] <:+ b :=
  h.suffix_of_mem h.root_mem .root

/-- A branch of a given length below the tip has a tail end of that length. -/
theorem exists_suffix {b : List N} {k : Nat} (_ : L.IsBranch b) (le : k ≤ b.length) :
    ∃ s, s <:+ b ∧ s.length = k :=
  ⟨b.drop (b.length - k), List.drop_suffix _ _, by rw [List.length_drop]; omega⟩

end IsBranch

namespace Comparable

theorem refl (b : List N) : Comparable b b := .inl List.suffix_rfl

theorem symm {b c : List N} (h : Comparable b c) : Comparable c b := Or.symm h

/-- Tail ends of one list stay comparable. -/
theorem of_suffix {a b c : List N} (hb : b <:+ a) (hc : c <:+ a) : Comparable b c :=
  List.suffix_or_suffix_of_suffix hb hc

theorem suffix_of_length_le {b c : List N} (h : Comparable b c) (le : b.length ≤ c.length) :
    b <:+ c := by
  rcases h with sub | sub
  · exact sub
  · rw [sub.eq_of_length_le le]

/-- Extending a list cannot make it comparable again, except by reaching the
other list exactly. -/
theorem of_cons {n : N} {b c : List N} (h : Comparable (n :: b) c) : Comparable b c := by
  rcases h with sub | sub
  · exact .inl ((List.suffix_cons n b).trans sub)
  · rcases List.suffix_cons_iff.mp sub with rfl | sub
    · exact .inl (List.suffix_cons n b)
    · exact .inr sub

/-- Growing a comparable list past the other keeps it comparable. -/
theorem cons_of_length_le {n : N} {b c : List N} (h : Comparable b c)
    (le : c.length ≤ b.length) : Comparable (n :: b) c :=
  .inr ((h.symm.suffix_of_length_le le).trans (List.suffix_cons n b))

end Comparable

end Lineage
