import P2PObserver.HeaderTree.Forest

/-! # The map represents a set of branches

`MapOf` ties the header map to the branches it stands for, and every walk over
the map is evaluated against the branch it follows. Pruning at a checkpoint then
reads as keeping the branches comparable with the checkpoint's.
-/

namespace P2PObserver

variable {H : Type} [LinearOrder H] {net : Network H} {checkpoints : List (Checkpoint H)}

/-- The map holds an entry for the newest header of each branch of `held`, and
    nothing else. -/
structure MapOf (net : Network H) (checkpoints : List (Checkpoint H))
    (headers : HashMap H (HeaderEntry H)) (held : Set (List (Header H))) : Prop where
  admissible : ∀ b ∈ held, Admissible net checkpoints b
  tail_mem : ∀ {n rest}, n :: rest ∈ held → rest ≠ [] → rest ∈ held
  root_mem : [net.genesis] ∈ held
  lookup_iff : ∀ {x e}, headers.lookup x = some e ↔
    ∃ n rest, n :: rest ∈ held ∧ net.blockHash n = x ∧ e = entryOf net n rest

namespace MapOf

variable {headers : HashMap H (HeaderEntry H)} {held : Set (List (Header H))}

theorem branch (M : MapOf net checkpoints headers held) {b : List (Header H)} (hb : b ∈ held) :
    net.IsBranch b :=
  (M.admissible b hb).isBranch

theorem lookup (M : MapOf net checkpoints headers held) {n : Header H} {rest : List (Header H)}
    (hb : n :: rest ∈ held) : headers.lookup (net.blockHash n) = some (entryOf net n rest) :=
  M.lookup_iff.mpr ⟨n, rest, hb, rfl, rfl⟩

theorem mem_iff (M : MapOf net checkpoints headers held) {x : H} :
    x ∈ headers ↔ ∃ n rest, n :: rest ∈ held ∧ net.blockHash n = x := by
  rw [HashMap.mem_iff_lookup]
  constructor
  · rintro ⟨e, found⟩
    obtain ⟨n, rest, hb, key, -⟩ := M.lookup_iff.mp found
    exact ⟨n, rest, hb, key⟩
  · rintro ⟨n, rest, hb, rfl⟩
    exact ⟨_, M.lookup hb⟩

theorem lookup_none (M : MapOf net checkpoints headers held) {x : H}
    (missing : headers.lookup x = none) {n : Header H} {rest : List (Header H)}
    (hb : n :: rest ∈ held) : net.blockHash n ≠ x := by
  rintro rfl
  rw [M.lookup hb] at missing
  cases missing

theorem suffix_mem (M : MapOf net checkpoints headers held) {b s : List (Header H)}
    (hb : b ∈ held) (sub : s <:+ b) (nonempty : s ≠ []) : s ∈ held := by
  induction b with
  | nil => exact absurd (List.suffix_nil.mp sub) nonempty
  | cons n rest ih =>
      rcases List.suffix_cons_iff.mp sub with rfl | sub
      · exact hb
      · have more : rest ≠ [] := by
          rintro rfl
          exact nonempty (List.suffix_nil.mp sub)
        exact ih (M.tail_mem hb more) sub

theorem eq_of_hash (M : MapOf net checkpoints headers held) {n n' : Header H}
    {rest rest' : List (Header H)} (hb : n :: rest ∈ held) (own : net.IsBranch (n' :: rest'))
    (same : net.blockHash n = net.blockHash n') : n :: rest = n' :: rest' :=
  (M.branch hb).unique_of_key own same

/-! ## Walks -/

theorem ancestors_eq (M : MapOf net checkpoints headers held) {n : Header H}
    {rest : List (Header H)} (hb : n :: rest ∈ held) {fuel : Nat} (enough : rest.length < fuel) :
    HeaderTree.ancestors headers fuel (net.blockHash n) = (n :: rest).map net.blockHash := by
  induction rest generalizing n fuel with
  | nil =>
      obtain ⟨fuel, rfl⟩ : ∃ k, fuel = k + 1 := ⟨fuel - 1, by omega⟩
      simp [HeaderTree.ancestors, M.lookup hb, entryOf]
  | cons p rest ih =>
      obtain ⟨fuel, rfl⟩ : ∃ k, fuel = k + 1 := ⟨fuel - 1, by omega⟩
      have link : n.prevBlockhash = net.blockHash p := (M.branch hb).link
      have below : HeaderTree.ancestors headers fuel (net.blockHash p) =
          (p :: rest).map net.blockHash := by
        refine ih (M.tail_mem hb (by simp)) ?_
        simpa using enough
      simp only [HeaderTree.ancestors, M.lookup hb, entryOf, List.length_cons, link, below,
        Nat.succ_ne_zero, if_false, List.map_cons]

theorem chainFrom_eq (M : MapOf net checkpoints headers held) {n : Header H}
    {rest : List (Header H)} (hb : n :: rest ∈ held) {fuel : Nat} (enough : rest.length < fuel) :
    HeaderTree.chainFrom headers fuel (net.blockHash n) =
      some ((n :: rest).map net.blockHash) := by
  induction rest generalizing n fuel with
  | nil =>
      obtain ⟨fuel, rfl⟩ : ∃ k, fuel = k + 1 := ⟨fuel - 1, by omega⟩
      simp [HeaderTree.chainFrom, M.lookup hb, entryOf]
  | cons p rest ih =>
      obtain ⟨fuel, rfl⟩ : ∃ k, fuel = k + 1 := ⟨fuel - 1, by omega⟩
      have link : n.prevBlockhash = net.blockHash p := (M.branch hb).link
      have below : HeaderTree.chainFrom headers fuel (net.blockHash p) =
          some ((p :: rest).map net.blockHash) := by
        refine ih (M.tail_mem hb (by simp)) ?_
        simpa using enough
      simp only [HeaderTree.chainFrom, M.lookup hb, entryOf, List.length_cons, link, below,
        Nat.succ_ne_zero, if_false, List.map_cons, Option.map_some]

/-- Walking back lands on the header that many places down the branch. -/
theorem walkBack_eq {t : HeaderTree H} (M : MapOf net checkpoints t.headers held) {n m : Header H}
    {rest : List (Header H)} (hb : n :: rest ∈ held) {steps : Nat}
    (at_steps : (n :: rest)[steps]? = some m) :
    t.walkBack (net.blockHash n) steps =
      some (entryOf net m (rest.drop steps)) := by
  induction steps generalizing n rest with
  | zero =>
      obtain rfl : n = m := by simpa using at_steps
      simp [HeaderTree.walkBack, M.lookup hb]
  | succ steps ih =>
      cases rest with
      | nil => simp at at_steps
      | cons p rest =>
          have link : n.prevBlockhash = net.blockHash p := (M.branch hb).link
          have down := ih (M.tail_mem hb (by simp)) (by simpa using at_steps)
          simp only [HeaderTree.walkBack, M.lookup hb, entryOf, link, List.drop_succ_cons] at down ⊢
          exact down

/-! ## Growing and pruning -/

/-- Adding an entry for a new admissible branch. -/
theorem insert (M : MapOf net checkpoints headers held) {n : Header H} {rest : List (Header H)}
    (below : rest ∈ held) (ok : Admissible net checkpoints (n :: rest))
    (fresh : n :: rest ∉ held) :
    MapOf net checkpoints (headers.insert (net.blockHash n) (entryOf net n rest))
      (Insert.insert (n :: rest) held) where
  admissible := by
    rintro b (rfl | hb)
    · exact ok
    · exact M.admissible b hb
  tail_mem := by
    rintro m rest' (eq | hb) more
    · obtain ⟨rfl, rfl⟩ := List.cons.inj eq
      exact .inr below
    · exact .inr (M.tail_mem hb more)
  root_mem := .inr M.root_mem
  lookup_iff := by
    intro x e
    rw [HashMap.lookup_insert_iff]
    constructor
    · rintro (⟨rfl, rfl⟩ | ⟨-, found⟩)
      · exact ⟨n, rest, .inl rfl, rfl, rfl⟩
      · obtain ⟨m, rest', hb, key, eq⟩ := M.lookup_iff.mp found
        exact ⟨m, rest', .inr hb, key, eq⟩
    · rintro ⟨m, rest', eq | hb, rfl, rfl⟩
      · obtain ⟨rfl, rfl⟩ := List.cons.inj eq
        exact .inl ⟨rfl, rfl⟩
      · refine .inr ⟨fun same => fresh ?_, M.lookup hb⟩
        rw [← M.eq_of_hash hb ok.isBranch same]
        exact hb

/-- Keeping a checkpoint's ancestors, when nothing held is taller than the
    checkpoint: what remains are the branches comparable with the checkpoint's. -/
theorem keepAncestors (M : MapOf net checkpoints headers held) {c : Header H}
    {rest : List (Header H)} {checkpoint : Checkpoint H} (hc : c :: rest ∈ held)
    (height : checkpoint.height = rest.length) (hash : checkpoint.hash = net.blockHash c)
    (top : ∀ b ∈ held, b.length ≤ (c :: rest).length) :
    MapOf net checkpoints (HeaderTree.keepAncestors headers checkpoint)
      {s | s ∈ held ∧ Lineage.Comparable s (c :: rest)} := by
  have walk : HeaderTree.ancestors headers (checkpoint.height + 1) checkpoint.hash =
      (c :: rest).map net.blockHash := by
    rw [height, hash]
    exact M.ancestors_eq hc (Nat.lt_succ_self _)
  have low : ∀ x e, headers.lookup x = some e → ¬ checkpoint.height < e.height := by
    intro x e found
    obtain ⟨n, below, hb, -, rfl⟩ := M.lookup_iff.mp found
    have := top _ hb
    simp only [List.length_cons, entryOf, height] at this ⊢
    omega
  have keep : ∀ n below, n :: below ∈ held →
      (net.blockHash n ∈ (c :: rest).map net.blockHash ↔
        Lineage.Comparable (n :: below) (c :: rest)) := by
    intro n below hb
    rw [List.mem_map_of_injective net.blockHash_injective]
    constructor
    · intro member
      exact .inl ((M.branch hc).suffix_of_mem member (M.branch hb))
    · intro comparable
      exact (comparable.suffix_of_length_le (top _ hb)).subset (List.mem_cons_self ..)
  set kept := HashMap.retain (fun hash entry => decide (checkpoint.height < entry.height) ||
    decide (hash ∈ (c :: rest).map net.blockHash)) headers with kept_def
  have kept_iff : ∀ {x e}, kept.lookup x = some e ↔
      headers.lookup x = some e ∧ x ∈ (c :: rest).map net.blockHash := by
    intro x e
    rw [kept_def, HashMap.lookup_retain_iff]
    refine and_congr_right fun found => ?_
    simp only [low x e found, decide_false, Bool.false_or, decide_eq_true_eq]
  have none_above : HeaderTree.heightsAbove kept checkpoint.height = [] := by
    have empty : (kept.entries.filter fun e => decide (checkpoint.height < e.2.height)) = [] := by
      rw [List.filter_eq_nil_iff]
      intro e member
      simpa using low _ _ (kept_iff.mp (HashMap.mem_entries_iff.mp member)).1
    rw [HeaderTree.heightsAbove, empty]
    rfl
  have result : HeaderTree.keepAncestors headers checkpoint = kept := by
    simp only [HeaderTree.keepAncestors, walk]
    rw [← kept_def, none_above]
    rfl
  rw [result]
  exact
    { admissible := fun b hb => M.admissible b hb.1
      tail_mem := fun hb more => ⟨M.tail_mem hb.1 more, hb.2.of_cons⟩
      root_mem := ⟨M.root_mem, .inl (M.branch hc).root_suffix⟩
      lookup_iff := by
        intro x e
        rw [kept_iff, M.lookup_iff]
        constructor
        · rintro ⟨⟨n, below, hb, rfl, rfl⟩, inside⟩
          exact ⟨n, below, ⟨hb, (keep n below hb).mp inside⟩, rfl, rfl⟩
        · rintro ⟨n, below, ⟨hb, comparable⟩, rfl, rfl⟩
          exact ⟨⟨n, below, hb, rfl, rfl⟩, (keep n below hb).mpr comparable⟩ }

/-- A map that represents part of another's branches and is no smaller
    represents all of them. -/
theorem mem_of_size_le {part : HashMap H (HeaderEntry H)} {some_held : Set (List (Header H))}
    (M : MapOf net checkpoints headers held) (P : MapOf net checkpoints part some_held)
    (sub : some_held ⊆ held) (le : HashMap.size headers ≤ HashMap.size part)
    {b : List (Header H)} (hb : b ∈ held) : b ∈ some_held := by
  have inside : ∀ x e, part.lookup x = some e → headers.lookup x = some e := by
    intro x e found
    obtain ⟨n, rest, hs, rfl, rfl⟩ := P.lookup_iff.mp found
    exact M.lookup (sub hs)
  cases b with
  | nil => exact absurd rfl (M.branch hb).ne_nil
  | cons n rest =>
      have found := HashMap.lookup_of_size_le inside le (M.lookup hb)
      obtain ⟨m, below, hs, key, -⟩ := P.lookup_iff.mp found
      rw [← P.eq_of_hash hs (M.branch hb) key]
      exact hs

end MapOf

end P2PObserver
