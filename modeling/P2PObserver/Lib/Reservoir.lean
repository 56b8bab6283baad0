import Mathlib.Data.List.Perm.Subperm

/-! # Reservoir sampling

Keeps up to `k` items of a stream whose length is not known in advance. Which items stay
depends on the source of randomness; how many, and that they come from the stream, does
not.
-/

structure Reservoir (α : Type) where
  items : List α
  seen : Nat
  k : Nat

namespace Reservoir

variable {α σ : Type}

def new (k : Nat) : Reservoir α := { items := [], seen := 0, k }

/-- Take an item in. `below rng n` draws a number in `[0, n)`. -/
def offer (below : σ → Nat → Nat × σ) (rng : σ) (r : Reservoir α) (item : α) : Reservoir α × σ :=
  if r.k = 0 then (r, rng)
  else if r.items.length < r.k then
    ({ r with seen := r.seen + 1, items := r.items ++ [item] }, rng)
  else
    let (j, rng) := below rng (r.seen + 1)
    if j < r.k then ({ r with seen := r.seen + 1, items := r.items.set j item }, rng)
    else ({ r with seen := r.seen + 1 }, rng)

/-- What the reservoir has taken from a stream. -/
structure Samples (r : Reservoir α) (stream : List α) : Prop where
  items : r.items.Subperm stream
  length : r.items.length = min r.k stream.length

theorem set_subperm {items stream : List α} (sub : items.Subperm stream) (item : α) {j : Nat}
    (inside : j < items.length) : (items.set j item).Subperm (item :: stream) := by
  have perm : (items.set j item).Perm (item :: items.eraseIdx j) := by
    rw [List.set_eq_take_append_cons_drop, if_pos inside, List.eraseIdx_eq_take_drop_succ]
    exact List.perm_middle
  exact perm.subperm.trans ((List.subperm_cons item).mpr ((items.eraseIdx_sublist j).subperm.trans sub))

@[simp] theorem new_k (k : Nat) : (new k : Reservoir α).k = k := rfl

theorem new_samples (k : Nat) : (new k : Reservoir α).Samples [] :=
  ⟨List.nil_subperm, by simp [new]⟩

@[simp] theorem offer_k (below : σ → Nat → Nat × σ) (rng : σ) (r : Reservoir α) (item : α) :
    (r.offer below rng item).1.k = r.k := by
  unfold offer
  split
  · rfl
  · split
    · rfl
    · dsimp only
      split <;> rfl

theorem Samples.offer {r : Reservoir α} {stream : List α} (S : r.Samples stream)
    (below : σ → Nat → Nat × σ) (rng : σ) (item : α) :
    (r.offer below rng item).1.Samples (item :: stream) := by
  have length := S.length
  have sub : r.items.Subperm (item :: stream) := S.items.trans (List.sublist_cons_self ..).subperm
  unfold Reservoir.offer
  by_cases no_room : r.k = 0
  · rw [if_pos no_room]
    exact ⟨sub, by rw [length, no_room]; simp⟩
  rw [if_neg no_room]
  by_cases room : r.items.length < r.k
  · rw [if_pos room]
    constructor
    · exact (List.perm_append_singleton item r.items).subperm.trans ((List.subperm_cons item).mpr S.items)
    · simp only [List.length_append, List.length_cons, List.length_nil]
      omega
  rw [if_neg room]
  have full : r.items.length = min r.k (item :: stream).length := by
    rw [List.length_cons]
    omega
  dsimp only
  split
  · constructor
    · exact set_subperm S.items item (by omega)
    · rw [List.length_set]
      exact full
  · exact ⟨sub, full⟩

theorem Samples.perm {r : Reservoir α} {stream stream' : List α} (S : r.Samples stream)
    (same : stream.Perm stream') : r.Samples stream' :=
  ⟨S.items.trans same.subperm, S.length.trans (by rw [same.length_eq])⟩

/-! ## One reservoir a class -/

section Classes

variable {ι κ : Type} [DecidableEq κ] (classOf : ι → κ)

/-- A list is its classes one after another, in some order. -/
theorem perm_classes {classes : List κ} (distinct : classes.Nodup) {l : List ι}
    (covered : ∀ x ∈ l, classOf x ∈ classes) :
    l.Perm (classes.flatMap fun c => l.filter (classOf · = c)) := by
  induction classes generalizing l with
  | nil =>
      cases l with
      | nil => simp
      | cons x _ => exact absurd (covered x List.mem_cons_self) List.not_mem_nil
  | cons c classes ih =>
      obtain ⟨fresh, distinct⟩ := List.nodup_cons.mp distinct
      have others : ∀ x ∈ l.filter (¬ classOf · = c), classOf x ∈ classes := by
        intro x member
        have := covered x (List.mem_of_mem_filter member)
        simp_all
      have rest := ih distinct others
      have same : (classes.flatMap fun c' =>
            (l.filter (¬ classOf · = c)).filter (classOf · = c')) =
          classes.flatMap fun c' => l.filter (classOf · = c') := by
        apply List.flatMap_congr
        intro c' member
        rw [List.filter_filter]
        apply List.filter_congr
        intro x _
        grind
      rw [same] at rest
      rw [List.flatMap_cons]
      have split := (List.filter_append_perm (classOf · = c) l).symm
      simp only [decide_not] at rest
      exact split.trans (rest.append_left _)

/-- What a reservoir for each class takes from a stream comes from the stream. -/
theorem subperm_classes {f : ι → α} {reservoirs : κ → Reservoir α} {stream : List ι}
    {classes : List κ} (distinct : classes.Nodup) (covered : ∀ x ∈ stream, classOf x ∈ classes)
    (S : ∀ c, (reservoirs c).Samples ((stream.filter (classOf · = c)).map f)) :
    (classes.flatMap fun c => (reservoirs c).items).Subperm (stream.map f) := by
  have split := (perm_classes classOf distinct covered).map f
  rw [List.map_flatMap] at split
  refine List.Subperm.trans ?_ split.symm.subperm
  clear split covered distinct
  induction classes with
  | nil => exact List.nil_subperm
  | cons c classes ih => exact (S c).items.append ih

end Classes

end Reservoir
