import Mathlib.Order.Bounds.Basic
import P2PObserver.Lib.Run
import P2PObserver.Metrics.Observe

/-! # The last sightings

The map and the queue of a network's blocks list the same hashes, the last ones added, each with
its earliest time since then.
-/

namespace P2PObserver

namespace Metrics

variable {H : Type} [DecidableEq H]

namespace RecentBlocks

/-- A call of `record`. -/
abbrev Sighting (H : Type) := H × Nat

def step (b : RecentBlocks H) (sighting : Sighting H) : RecentBlocks H :=
  b.record sighting.1 sighting.2

def recordAll (sightings : List (Sighting H)) : RecentBlocks H := Run.runFrom step empty sightings

/-- The last so many hashes. -/
def latest (hashes : List H) : List H := hashes.drop (hashes.length - RECENT_BLOCKS)

/-- The hashes in the order they were first recorded, again after each time they had gone from
    the last so many. -/
def additions (sightings : List (Sighting H)) : List H :=
  sightings.foldl (fun hashes sighting =>
    if sighting.1 ∈ latest hashes then hashes else hashes ++ [sighting.1]) []

/-! ## The last so many -/

omit [DecidableEq H] in
theorem latest_of_fits {hashes : List H} (fits : hashes.length ≤ RECENT_BLOCKS) :
    latest hashes = hashes := by
  rw [latest, Nat.sub_eq_zero_of_le fits, List.drop_zero]

omit [DecidableEq H] in
theorem latest_cons {hash : H} {hashes : List H} (full : RECENT_BLOCKS ≤ hashes.length) :
    latest (hash :: hashes) = latest hashes := by
  have more : (hash :: hashes).length - RECENT_BLOCKS =
      (hashes.length - RECENT_BLOCKS) + 1 := by
    rw [List.length_cons]
    omega
  rw [latest, more, List.drop_succ_cons, latest]

omit [DecidableEq H] in
theorem mem_of_latest {hashes : List H} {hash : H} (inside : hash ∈ latest hashes) :
    hash ∈ hashes := List.mem_of_mem_drop inside

omit [DecidableEq H] in
theorem length_latest (hashes : List H) : (latest hashes).length ≤ RECENT_BLOCKS := by
  rw [latest, List.length_drop]
  omega

omit [DecidableEq H] in
/-- The last so many do not depend on what came before the last so many. -/
theorem latest_append (hashes more : List H) :
    latest (latest hashes ++ more) = latest (hashes ++ more) := by
  simp only [latest]
  rw [List.length_append, List.length_drop, List.length_append]
  by_cases short : hashes.length ≤ RECENT_BLOCKS
  · rw [Nat.sub_eq_zero_of_le short, List.drop_zero, Nat.sub_zero]
  · rw [List.drop_append, List.drop_append, List.drop_drop, List.length_drop]
    congr 2 <;> omega

omit [DecidableEq H] in
theorem latest_concat (hashes : List H) (hash : H) : hash ∈ latest (hashes ++ [hash]) := by
  have whole : hashes ++ [hash] = (hashes ++ [hash]).take
      ((hashes ++ [hash]).length - RECENT_BLOCKS) ++ latest (hashes ++ [hash]) :=
    (List.take_append_drop ..).symm
  have filled : latest (hashes ++ [hash]) ≠ [] := by
    rw [latest, Ne, List.drop_eq_nil_iff, List.length_append, List.length_singleton]
    have many : 0 < RECENT_BLOCKS := by decide
    omega
  have last := congrArg List.getLast? whole
  rw [List.getLast?_concat, List.getLast?_append_of_ne_nil _ filled] at last
  exact List.mem_of_getLast? last.symm

/-! ## Forgetting -/

theorem order_forget (firstSeenMs : HashMap H Nat) (order : List H) :
    (forget firstSeenMs order).order = latest order := by
  induction order generalizing firstSeenMs with
  | nil => rfl
  | cons old order ih =>
      rw [forget]
      split
      · rename_i full
        rw [ih, latest_cons (Nat.le_of_lt_succ full)]
      · rename_i fits
        rw [latest_of_fits (Nat.le_of_not_lt fits)]

/-- What is forgotten leaves the map too. -/
theorem firstSeen_forget {firstSeenMs : HashMap H Nat} {order : List H} (distinct : order.Nodup)
    (hash : H) : (forget firstSeenMs order).firstSeen hash =
      if hash ∈ order ∧ hash ∉ latest order then none else firstSeenMs.lookup hash := by
  induction order generalizing firstSeenMs with
  | nil => simp [forget, firstSeen]
  | cons old order ih =>
      obtain ⟨new, rest⟩ := List.nodup_cons.mp distinct
      rw [forget]
      split
      · rename_i full
        rw [ih rest, latest_cons (Nat.le_of_lt_succ full)]
        by_cases here : hash = old
        · subst here
          have gone : hash ∉ latest order := fun inside => new (mem_of_latest inside)
          simp [new, gone, AList.lookup_erase]
        · simp [here, AList.lookup_erase_ne here]
      · rename_i fits
        rw [latest_of_fits (Nat.le_of_not_lt fits), if_neg fun both => both.2 both.1]
        rfl

/-! ## The invariant -/

/-- The queue lists the keys of the map, each once, and no more than are remembered. -/
structure Sound (b : RecentBlocks H) : Prop where
  distinct : b.order.Nodup
  keys : ∀ hash, hash ∈ b.order ↔ (b.firstSeen hash).isSome = true
  fits : b.order.length ≤ RECENT_BLOCKS

omit [DecidableEq H] in
theorem sound_empty [DecidableEq H] : (empty : RecentBlocks H).Sound :=
  ⟨List.nodup_nil, fun _ => by simp [empty, firstSeen], Nat.zero_le _⟩

/-- A hash already listed keeps its place and the earlier time. -/
theorem Sound.record_known {b : RecentBlocks H} (sound : b.Sound) {hash : H}
    (known : hash ∈ b.order) (timestampMs : Nat) :
    (b.record hash timestampMs).order = b.order ∧ ∀ other,
      (b.record hash timestampMs).firstSeen other =
        if other = hash then (b.firstSeen other).map (min · timestampMs)
        else b.firstSeen other := by
  obtain ⟨existing, found⟩ := Option.isSome_iff_exists.mp ((sound.keys hash).mp known)
  have found' : b.firstSeenMs.lookup hash = some existing := found
  rw [record, found']
  exact ⟨rfl, fun other => HashMap.lookup_modify⟩

theorem Sound.distinct_concat {b : RecentBlocks H} (sound : b.Sound) {hash : H}
    (unknown : hash ∉ b.order) : (b.order ++ [hash]).Nodup := by
  rw [List.nodup_append]
  refine ⟨sound.distinct, List.nodup_singleton _, ?_⟩
  rintro a inside c here rfl
  exact unknown (List.mem_singleton.mp here ▸ inside)

/-- A hash not listed goes to the end, and the oldest goes where there are too many. -/
theorem Sound.record_new {b : RecentBlocks H} (sound : b.Sound) {hash : H}
    (unknown : hash ∉ b.order) (timestampMs : Nat) :
    (b.record hash timestampMs).order = latest (b.order ++ [hash]) ∧ ∀ other,
      (b.record hash timestampMs).firstSeen other =
        if other = hash then some timestampMs
        else if other ∈ latest (b.order ++ [hash]) then b.firstSeen other else none := by
  have missing : b.firstSeenMs.lookup hash = none := by
    have gone := mt (sound.keys hash).mpr unknown
    rwa [Option.not_isSome_iff_eq_none] at gone
  rw [record, missing]
  refine ⟨order_forget .., fun other => ?_⟩
  rw [firstSeen_forget (sound.distinct_concat unknown)]
  by_cases here : other = hash
  · subst here
    simp [latest_concat]
  · have listed := sound.keys other
    rw [AList.lookup_insert_ne here]
    have same : b.firstSeenMs.lookup other = b.firstSeen other := rfl
    rw [same, if_neg here]
    by_cases kept : other ∈ latest (b.order ++ [hash])
    · rw [if_neg fun both => both.2 kept, if_pos kept]
    · rw [if_neg kept]
      split
      · rfl
      · rename_i out
        have unlisted : other ∉ b.order := fun inside =>
          out ⟨List.mem_append_left _ inside, kept⟩
        rwa [listed, Option.not_isSome_iff_eq_none] at unlisted

theorem Sound.record {b : RecentBlocks H} (sound : b.Sound) (hash : H) (timestampMs : Nat) :
    (b.record hash timestampMs).Sound := by
  by_cases known : hash ∈ b.order
  · obtain ⟨order, seen⟩ := sound.record_known known timestampMs
    refine ⟨order ▸ sound.distinct, fun other => ?_, order ▸ sound.fits⟩
    rw [order, seen, sound.keys]
    split
    · rw [Option.isSome_map]
    · rfl
  · obtain ⟨order, seen⟩ := sound.record_new known timestampMs
    have distinct : (b.order ++ [hash]).Nodup := sound.distinct_concat known
    refine ⟨order ▸ distinct.sublist (List.drop_sublist ..), fun other => ?_,
      order ▸ length_latest _⟩
    rw [order, seen]
    by_cases here : other = hash
    · subst here
      simp [latest_concat]
    · rw [if_neg here]
      split
      · rename_i kept
        have listed : other ∈ b.order := by
          simpa [here] using mem_of_latest kept
        exact iff_of_true kept ((sound.keys other).mp listed)
      · rename_i gone
        exact iff_of_false gone (by simp)

theorem sound_recordAll (sightings : List (Sighting H)) : (recordAll sightings).Sound :=
  Run.runFrom_preserves step (fun _ sighting sound => sound.record sighting.1 sighting.2)
    sound_empty sightings

theorem recordAll_concat (sightings : List (Sighting H)) (hash : H) (timestampMs : Nat) :
    recordAll (sightings ++ [(hash, timestampMs)]) =
      (recordAll sightings).record hash timestampMs :=
  Run.runFrom_append step empty sightings [(hash, timestampMs)]

/-! ## What is listed -/

theorem order_recordAll (sightings : List (Sighting H)) :
    (recordAll sightings).order = latest (additions sightings) := by
  induction sightings using List.reverseRecOn with
  | nil => rfl
  | append_singleton sightings last ih =>
      obtain ⟨hash, timestampMs⟩ := last
      have sound := sound_recordAll sightings
      have added : additions (sightings ++ [(hash, timestampMs)]) =
          if hash ∈ latest (additions sightings) then additions sightings
          else additions sightings ++ [hash] := by
        rw [additions, List.foldl_append]
        rfl
      rw [recordAll_concat, added, ← ih]
      split
      · rename_i known
        rw [(sound.record_known known timestampMs).1, ih]
      · rename_i unknown
        rw [(sound.record_new unknown timestampMs).1, ih, latest_append]

/-! ## Since a hash was last added -/

/-- The hash was added at `time`, after `before`, and has been listed since. -/
structure LastAdded (sightings : List (Sighting H)) (hash : H) (before : List (Sighting H))
    (time : Nat) (after : List (Sighting H)) : Prop where
  split : sightings = before ++ (hash, time) :: after
  fresh : hash ∉ (recordAll before).order
  kept : ∀ more, more <+: after → hash ∈ (recordAll (before ++ (hash, time) :: more)).order

theorem LastAdded.concat {sightings before after : List (Sighting H)} {hash : H} {time : Nat}
    (added : LastAdded sightings hash before time after) {last : Sighting H}
    (listed : hash ∈ (recordAll (sightings ++ [last])).order) :
    LastAdded (sightings ++ [last]) hash before time (after ++ [last]) := by
  have split : sightings ++ [last] = before ++ (hash, time) :: (after ++ [last]) := by
    simp [added.split]
  refine ⟨split, added.fresh, fun more inside => ?_⟩
  rcases List.prefix_concat_iff.mp inside with rfl | inside
  · exact split ▸ listed
  · exact added.kept more inside

/-- The times recorded for a hash. -/
def times (sightings : List (Sighting H)) (hash : H) : Set Nat :=
  { timestampMs | (hash, timestampMs) ∈ sightings }

omit [DecidableEq H] in
theorem times_concat_self (sightings : List (Sighting H)) (hash : H) (timestampMs : Nat) :
    times (sightings ++ [(hash, timestampMs)]) hash =
      insert timestampMs (times sightings hash) := by
  ext other
  simp [times, or_comm]

omit [DecidableEq H] in
theorem times_concat_ne {hash other : H} (ne : hash ≠ other) (sightings : List (Sighting H))
    (timestampMs : Nat) :
    times (sightings ++ [(other, timestampMs)]) hash = times sightings hash := by
  ext other
  simp [times, ne]

/-- A hash still listed shows the least time recorded for it since it was last added. -/
theorem firstSeen_recordAll {sightings : List (Sighting H)} {hash : H}
    (listed : hash ∈ (recordAll sightings).order) :
    ∃ before time after, LastAdded sightings hash before time after ∧
      ∃ least, (recordAll sightings).firstSeen hash = some least ∧
        IsLeast (times ((hash, time) :: after) hash) least := by
  induction sightings using List.reverseRecOn with
  | nil => simp [recordAll, empty] at listed
  | append_singleton sightings last ih =>
      obtain ⟨other, timestampMs⟩ := last
      have sound := sound_recordAll sightings
      have listed' := listed
      rw [recordAll_concat] at listed' ⊢
      by_cases known : other ∈ (recordAll sightings).order
      · obtain ⟨order, seen⟩ := sound.record_known known timestampMs
        obtain ⟨before, time, after, added, least, shown, isLeast⟩ := ih (order ▸ listed')
        refine ⟨before, time, _, added.concat listed, ?_⟩
        rw [seen, shown]
        by_cases here : hash = other
        · subst here
          refine ⟨min timestampMs least, by simp [min_comm], ?_⟩
          rw [← List.cons_append, times_concat_self]
          exact isLeast.insert timestampMs
        · refine ⟨least, by simp [here], ?_⟩
          rwa [← List.cons_append, times_concat_ne here]
      · obtain ⟨order, seen⟩ := sound.record_new known timestampMs
        by_cases here : hash = other
        · subst here
          refine ⟨sightings, timestampMs, [], ⟨rfl, known, ?_⟩, timestampMs, ?_, ?_⟩
          · intro more inside
            rw [List.prefix_nil.mp inside]
            exact listed
          · rw [seen, if_pos rfl]
          · simp [times, isLeast_singleton]
        · rw [order] at listed'
          have earlier : hash ∈ (recordAll sightings).order := by
            simpa [here] using mem_of_latest listed'
          obtain ⟨before, time, after, added, least, shown, isLeast⟩ := ih earlier
          refine ⟨before, time, _, added.concat listed, least, ?_, ?_⟩
          · rw [seen, if_neg here, if_pos listed', shown]
          · rwa [← List.cons_append, times_concat_ne here]

/-! ## Repeats -/

/-- Repeats of listed hashes move none of them, and lower each time to the least. -/
theorem Sound.repeats {b : RecentBlocks H} (sound : b.Sound) {again : List (Sighting H)}
    (listed : ∀ sighting ∈ again, sighting.1 ∈ b.order) :
    (Run.runFrom step b again).order = b.order ∧ ∀ hash,
      (Run.runFrom step b again).firstSeen hash = (b.firstSeen hash).map fun seen =>
        again.foldl (fun seen sighting =>
          if sighting.1 = hash then min seen sighting.2 else seen) seen := by
  induction again generalizing b with
  | nil => simp
  | cons first rest ih =>
      have known := listed first List.mem_cons_self
      obtain ⟨order, seen⟩ := sound.record_known known first.2
      have rest' : ∀ sighting ∈ rest, sighting.1 ∈ (b.record first.1 first.2).order := by
        intro sighting inside
        rw [order]
        exact listed sighting (List.mem_cons_of_mem _ inside)
      obtain ⟨order', seen'⟩ := ih (sound.record first.1 first.2) rest'
      refine ⟨order'.trans order, fun hash => ?_⟩
      rw [Run.runFrom_cons, step, seen', seen]
      by_cases here : hash = first.1
      · subst here
        simp [Option.map_map, Function.comp_def]
      · simp [here, Ne.symm here]

/-- The order of the repeats decides nothing. -/
theorem firstSeen_perm (sightings : List (Sighting H)) {again again' : List (Sighting H)}
    (listed : ∀ sighting ∈ again, sighting.1 ∈ (recordAll sightings).order)
    (perm : again.Perm again') (hash : H) :
    (recordAll (sightings ++ again)).firstSeen hash =
      (recordAll (sightings ++ again')).firstSeen hash := by
  have sound := sound_recordAll sightings
  have listed' : ∀ sighting ∈ again', sighting.1 ∈ (recordAll sightings).order :=
    fun sighting inside => listed sighting (perm.mem_iff.mpr inside)
  rw [recordAll, recordAll, Run.runFrom_append, Run.runFrom_append, ← recordAll,
    (sound.repeats listed).2, (sound.repeats listed').2]
  congr 1
  funext seen
  refine perm.foldl_eq' (fun a _ b _ seen => ?_) seen
  grind

/-- The queue lists the last hashes added, each once, and they are the keys of the map; each shows
    its least time since it was last added, in whatever order its repeats came. -/
theorem recordAll_latest (sightings : List (Sighting H)) :
    (recordAll sightings).order.Nodup ∧
      (∀ hash, hash ∈ (recordAll sightings).order ↔
        hash ∈ (recordAll sightings).firstSeenMs.keys) ∧
      (recordAll sightings).order.length ≤ RECENT_BLOCKS ∧
      (recordAll sightings).order = latest (additions sightings) ∧
      (∀ hash, hash ∈ (recordAll sightings).order →
        ∃ before time after, LastAdded sightings hash before time after ∧
          ∃ least, (recordAll sightings).firstSeen hash = some least ∧
            IsLeast (times ((hash, time) :: after) hash) least) ∧
      ∀ again again' hash,
        (∀ sighting ∈ again, sighting.1 ∈ (recordAll sightings).order) → again.Perm again' →
          (recordAll (sightings ++ again)).firstSeen hash =
            (recordAll (sightings ++ again')).firstSeen hash := by
  have sound := sound_recordAll sightings
  have keys (hash : H) : hash ∈ (recordAll sightings).order ↔
      hash ∈ (recordAll sightings).firstSeenMs.keys := by
    rw [sound.keys, firstSeen, AList.lookup_isSome, AList.mem_keys]
  refine ⟨sound.distinct, keys, sound.fits, order_recordAll sightings, ?_, ?_⟩
  · intro hash listed
    exact firstSeen_recordAll listed
  · intro again again' hash listed perm
    exact firstSeen_perm sightings listed perm hash

end RecentBlocks

end Metrics

end P2PObserver
