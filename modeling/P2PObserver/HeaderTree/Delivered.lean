import P2PObserver.HeaderTree.Invariant

/-! # The tree is a function of what was delivered

When every header comes after its parent, the branches a tree holds are those its
headers allow and its checkpoints tolerate, whatever the order: a branch that strays
from a checkpoint is pruned when it came first and refused when it came last.
-/

namespace P2PObserver

variable {H : Type} {net : Network H} {checkpoints : List (Checkpoint H)}

/-- No header is delivered before its parent. Genesis needs no delivery. -/
def ParentFirst (net : Network H) (delivered : List (Header H)) : Prop :=
  ∀ before header after, delivered = before ++ header :: after → header ≠ net.genesis →
    ∀ parent ∈ delivered, net.blockHash parent = header.prevBlockhash →
      parent = net.genesis ∨ parent ∈ before

instance [DecidableEq H] (delivered : List (Header H)) : Decidable (ParentFirst net delivered) :=
  decidable_of_iff (∀ i : Fin delivered.length, delivered[i] ≠ net.genesis →
      ∀ parent ∈ delivered, net.blockHash parent = delivered[i].prevBlockhash →
        parent = net.genesis ∨ parent ∈ delivered.take i) <| by
    constructor
    · intro all before header after split
      subst split
      have at_header := all ⟨before.length, by simp⟩
      simpa using at_header
    · intro order i
      refine order (delivered.take i) delivered[i] (delivered.drop (i + 1)) ?_
      rw [Fin.getElem_fin, List.getElem_cons_drop, List.take_append_drop]

/-- An admissible branch all of whose headers have been delivered. -/
structure Candidate (net : Network H) (checkpoints : List (Checkpoint H))
    (delivered : List (Header H)) (branch : List (Header H)) : Prop where
  admissible : Admissible net checkpoints branch
  delivered : ∀ n ∈ branch, n ≠ net.genesis → n ∈ delivered

/-- The candidates no checkpoint among the candidates rules out. -/
def settled (net : Network H) (checkpoints : List (Checkpoint H)) (delivered : List (Header H)) :
    Set (List (Header H)) :=
  {b | Candidate net checkpoints delivered b ∧
    ∀ c, Candidate net checkpoints delivered c → IsCheckpoint net checkpoints c →
      Lineage.Comparable b c}

/-- A prefix of an orderly delivery is orderly. -/
theorem ParentFirst.of_append {delivered more : List (Header H)}
    (order : ParentFirst net (delivered ++ more)) : ParentFirst net delivered := by
  intro before header after split off parent member link
  exact order before header (after ++ more) (by simp [split]) off parent
    (List.mem_append_left _ member) link

namespace Candidate

variable {delivered : List (Header H)} {b : List (Header H)}

theorem root : Candidate net checkpoints delivered [net.genesis] where
  admissible := .root
  delivered := by
    intro n member off
    exact absurd (List.mem_singleton.mp member) off

theorem suffix {s : List (Header H)} (h : Candidate net checkpoints delivered b) (sub : s <:+ b)
    (nonempty : s ≠ []) : Candidate net checkpoints delivered s where
  admissible := h.admissible.suffix sub nonempty
  delivered n member off := h.delivered n (sub.subset member) off

theorem mono {delivered' : List (Header H)} (h : Candidate net checkpoints delivered b)
    (sub : delivered ⊆ delivered') : Candidate net checkpoints delivered' b where
  admissible := h.admissible
  delivered n member off := sub (h.delivered n member off)

/-- A checkpoint branch among the candidates is always settled. -/
theorem settled_of_checkpoint (h : Candidate net checkpoints delivered b)
    (isCheckpoint : IsCheckpoint net checkpoints b) : b ∈ settled net checkpoints delivered :=
  ⟨h, fun _ hc reached => h.admissible.comparable_of_checkpoint hc.admissible reached isCheckpoint⟩

/-- Delivering one more header, after its parent, makes at most one new candidate:
    the branch the header ends. -/
theorem of_append {header : Header H}
    (order : ParentFirst net (delivered ++ [header]))
    (h : Candidate net checkpoints (delivered ++ [header]) b) :
    Candidate net checkpoints delivered b ∨
      header ∉ delivered ∧ header ≠ net.genesis ∧ ∃ p rest, b = header :: p :: rest ∧
        Candidate net checkpoints delivered (p :: rest) := by
  by_cases known : header ∈ delivered ∨ header = net.genesis
  · left
    refine ⟨h.admissible, ?_⟩
    intro n member off
    cases List.mem_append.mp (h.delivered n member off) with
    | inl already => exact already
    | inr last =>
        obtain rfl := List.mem_singleton.mp last
        exact known.resolve_right off
  · obtain ⟨new, off⟩ := not_or.mp known
    induction b with
    | nil => exact absurd rfl h.admissible.isBranch.ne_nil
    | cons n rest ih =>
        cases rest with
        | nil =>
            cases h.admissible.isBranch
            exact .inl .root
        | cons p rest =>
            have link : n.prevBlockhash = net.blockHash p := h.admissible.isBranch.link
            have below := h.suffix (List.suffix_cons n (p :: rest)) (by simp)
            cases ih below with
            | inl own =>
                by_cases last : n = header
                · subst last
                  exact .inr ⟨new, off, p, rest, rfl, own⟩
                · left
                  refine ⟨h.admissible, ?_⟩
                  intro m member m_off
                  cases List.mem_cons.mp member with
                  | inl eq =>
                      subst eq
                      simpa [last] using h.delivered m member m_off
                  | inr inside => exact own.delivered m inside m_off
            | inr last =>
                -- `n` came before `header`, its own parent.
                obtain ⟨-, -, _, _, eq, -⟩ := last
                obtain ⟨rfl, rfl⟩ := List.cons.inj eq
                have n_off : n ≠ net.genesis := h.admissible.isBranch.ne_root
                have ne : n ≠ p := by
                  intro same
                  have once := h.admissible.isBranch.nodup
                  simp [same] at once
                have early : n ∈ delivered := by
                  simpa [ne] using h.delivered n List.mem_cons_self n_off
                obtain ⟨before, after, split⟩ := List.append_of_mem early
                have parent := order before n (after ++ [p]) (by simp [split]) n_off p (by simp)
                  link.symm
                cases parent with
                | inl root => exact absurd root off
                | inr member => exact absurd (by simp [split, member]) new

end Candidate

/-- New candidates that stray from a checkpoint already delivered settle nothing. -/
theorem settled_eq_of_strays {delivered delivered' : List (Header H)}
    (sub : delivered ⊆ delivered')
    (strays : ∀ b, Candidate net checkpoints delivered' b →
      Candidate net checkpoints delivered b ∨
        ∃ c, Candidate net checkpoints delivered c ∧ IsCheckpoint net checkpoints c ∧
          ¬ Lineage.Comparable b c) :
    settled net checkpoints delivered' = settled net checkpoints delivered := by
  have same_checkpoints : ∀ c, Candidate net checkpoints delivered' c →
      IsCheckpoint net checkpoints c → Candidate net checkpoints delivered c := by
    intro c hc reached
    cases strays c hc with
    | inl already => exact already
    | inr stray =>
        obtain ⟨c', hc', reached', apart⟩ := stray
        exact absurd (hc.admissible.comparable_of_checkpoint hc'.admissible reached' reached) apart
  ext b
  constructor
  · intro hb
    cases strays b hb.1 with
    | inl already => exact ⟨already, fun c hc reached => hb.2 c (hc.mono sub) reached⟩
    | inr stray =>
        obtain ⟨c, hc, reached, apart⟩ := stray
        exact absurd (hb.2 c (hc.mono sub) reached) apart
  · intro hb
    exact ⟨hb.1.mono sub, fun c hc reached => hb.2 c (same_checkpoints c hc reached) reached⟩

/-! ## The tree holds what is settled -/

variable [LinearOrder H]

namespace Represents

variable {t : HeaderTree H} {delivered : List (Header H)}

/-- A checkpoint candidate is no higher than the checkpoint the tree has reached. -/
theorem candidate_checkpoint_le (R : Represents net t (settled net t.checkpoints delivered))
    {c : List (Header H)} (hc : Candidate net t.checkpoints delivered c)
    (isCheckpoint : IsCheckpoint net t.checkpoints c) :
    ∃ r, t.reachedCheckpoint = some r ∧ c.length ≤ r + 1 := by
  have held := hc.settled_of_checkpoint isCheckpoint
  cases reached : t.reachedCheckpoint with
  | none => exact absurd isCheckpoint (R.unreached reached c held)
  | some r =>
      obtain ⟨top, _, _, length, _, highest⟩ := R.reached r reached
      exact ⟨r, rfl, length ▸ highest c held isCheckpoint⟩

/-- An accepted header settles exactly the branch it ends. -/
theorem settled_accept (R : Represents net t (settled net t.checkpoints delivered))
    {header p : Header H} {rest : List (Header H)}
    (order : ParentFirst net (delivered ++ [header]))
    (h : Placeable net t (settled net t.checkpoints delivered) header p rest) :
    growWith net t.checkpoints (settled net t.checkpoints delivered) (header :: p :: rest) =
      settled net t.checkpoints (delivered ++ [header]) := by
  have parent := h.parent
  have new : Candidate net t.checkpoints (delivered ++ [header]) (header :: p :: rest) := by
    refine ⟨h.admissible R, ?_⟩
    intro n member off
    cases List.mem_cons.mp member with
    | inl eq => simp [eq]
    | inr inside => simp [parent.1.delivered n inside off]
  have only : ∀ b, Candidate net t.checkpoints (delivered ++ [header]) b →
      Candidate net t.checkpoints delivered b ∨ b = header :: p :: rest := by
    intro b hb
    cases hb.of_append order with
    | inl already => exact .inl already
    | inr last =>
        obtain ⟨-, -, q, below, rfl, -⟩ := last
        exact .inr (hb.admissible.isBranch.unique_of_key new.admissible.isBranch rfl)
  have tolerated : ∀ c, Candidate net t.checkpoints delivered c →
      IsCheckpoint net t.checkpoints c → Lineage.Comparable (header :: p :: rest) c := by
    intro c hc isCheckpoint
    obtain ⟨r, reached, le⟩ := R.candidate_checkpoint_le hc isCheckpoint
    have above := h.above r reached
    exact (parent.2 c hc isCheckpoint).cons_of_length_le (by omega)
  have sub : delivered ⊆ delivered ++ [header] := List.subset_append_left _ _
  ext b
  constructor
  · rintro ⟨held | eq, comparable⟩
    · refine ⟨held.1.mono sub, ?_⟩
      intro c hc isCheckpoint
      cases only c hc with
      | inl already => exact held.2 c already isCheckpoint
      | inr eq =>
          rw [eq] at isCheckpoint ⊢
          exact comparable isCheckpoint
    · rw [eq] at comparable ⊢
      refine ⟨new, ?_⟩
      intro c hc isCheckpoint
      cases only c hc with
      | inl already => exact tolerated c already isCheckpoint
      | inr same =>
          rw [same]
          exact .refl _
  · intro hb
    refine ⟨?_, fun isCheckpoint => hb.2 _ new isCheckpoint⟩
    cases only b hb.1 with
    | inl already => exact .inl ⟨already, fun c hc reached => hb.2 c (hc.mono sub) reached⟩
    | inr eq => exact .inr eq

/-- A header the tree does not accept settles nothing. -/
theorem settled_refused (R : Represents net t (settled net t.checkpoints delivered))
    {header : Header H} (order : ParentFirst net (delivered ++ [header]))
    (stays : ∀ p rest, p :: rest ∈ settled net t.checkpoints delivered →
      header.prevBlockhash = net.blockHash p → header ≠ net.genesis →
      Sound net t.checkpoints header (p :: rest) →
      header :: p :: rest ∉ settled net t.checkpoints delivered ∧
        ∃ r, t.reachedCheckpoint = some r ∧ (p :: rest).length ≤ r) :
    settled net t.checkpoints (delivered ++ [header]) =
      settled net t.checkpoints delivered := by
  refine settled_eq_of_strays (List.subset_append_left _ _) ?_
  intro b hb
  cases hb.of_append order with
  | inl already => exact .inl already
  | inr last =>
      obtain ⟨-, off, p, rest, rfl, below⟩ := last
      have link : header.prevBlockhash = net.blockHash p := hb.admissible.isBranch.link
      have ok := hb.admissible.sound header (p :: rest) List.suffix_rfl (by simp)
      right
      by_cases held : p :: rest ∈ settled net t.checkpoints delivered
      · obtain ⟨fresh, r, reached, le⟩ := stays p rest held link off ok
        obtain ⟨c, hc, isCheckpoint, length, -, -⟩ := R.reached r reached
        refine ⟨c, hc.1, isCheckpoint, fun comparable => fresh ?_⟩
        have through := comparable.suffix_of_length_le (by simp at le ⊢; omega)
        exact R.suffix_mem hc through (by simp)
      · have stray : ∃ c, Candidate net t.checkpoints delivered c ∧
            IsCheckpoint net t.checkpoints c ∧ ¬ Lineage.Comparable (p :: rest) c := by
          by_contra none
          refine held ⟨below, fun c hc isCheckpoint => ?_⟩
          by_contra apart
          exact none ⟨c, hc, isCheckpoint, apart⟩
        obtain ⟨c, hc, isCheckpoint, apart⟩ := stray
        exact ⟨c, hc, isCheckpoint, fun comparable => apart comparable.of_cons⟩

/-- One insertion after another, the tree keeps representing what is settled. -/
theorem settled_insertInner (R : Represents net t (settled net t.checkpoints delivered))
    {header : Header H} (order : ParentFirst net (delivered ++ [header])) :
    Represents net (t.insertInner net header).1
      (settled net t.checkpoints (delivered ++ [header])) := by
  have outcome := R.insertInner_outcome header
  generalize (t.insertInner net header).1 = t', (t.insertInner net header).2 = result at outcome ⊢
  cases outcome with
  | known held =>
      rename_i below
      have same : settled net t.checkpoints (delivered ++ [header]) =
          settled net t.checkpoints delivered := by
        refine settled_eq_of_strays (List.subset_append_left _ _) ?_
        intro b hb
        cases hb.of_append order with
        | inl already => exact .inl already
        | inr last =>
            obtain ⟨new, off, -⟩ := last
            exact absurd (held.1.delivered header List.mem_cons_self off) new
      rw [same]
      exact R
  | unplaced fresh missing =>
      rw [R.settled_refused order (fun p rest held link => absurd link.symm (missing p rest held))]
      exact R.of_sameChain (HeaderTree.refuseUnplaced_sameChain net t header)
  | refused fresh held link said =>
      rename_i p rest reason
      rw [R.settled_refused order ?_]
      · exact R.of_sameChain (HeaderTree.rememberRejected_sameChain t _ _)
      · intro q below held' link' off ok
        refine ⟨fresh _, ?_⟩
        by_contra above
        have same := R.toMapOf.eq_of_hash held (R.toMapOf.branch held') (link.symm.trans link')
        rw [← same] at ok above
        have accepted : net.verdict t.checkpoints t.reachedCheckpoint header (p :: rest) =
            .ok () := by
          rw [net.verdict_ok_iff R.heights_nodup]
          refine ⟨ok, fun r reached => ?_⟩
          by_contra le
          exact above ⟨r, reached, Nat.le_of_not_lt le⟩
        rw [said] at accepted
        cases accepted
  | accepted h =>
      rw [← R.settled_accept order h]
      exact R.accept h

end Represents

theorem settled_nil : settled net checkpoints [] = {[net.genesis]} := by
  have only : ∀ b, Candidate net checkpoints [] b → b = [net.genesis] := by
    intro b hb
    have all : ∀ n ∈ b, n = net.genesis := by
      intro n member
      by_contra off
      exact absurd (hb.delivered n member off) List.not_mem_nil
    cases hb.admissible.isBranch with
    | root => rfl
    | child _ _ off => exact absurd (all _ List.mem_cons_self) off
  ext b
  constructor
  · intro hb
    exact only b hb.1
  · intro eq
    rw [Set.mem_singleton_iff.mp eq]
    refine ⟨.root, fun c hc _ => ?_⟩
    rw [only c hc]
    exact .refl _

/-- A run that delivers parents first represents what its deliveries settle. -/
theorem run_settled (distinct : (checkpoints.map Checkpoint.height).Nodup)
    (batches : List (List (Header H))) (order : ParentFirst net batches.flatten) :
    Represents net (HeaderTree.run net checkpoints batches)
      (settled net (HeaderTree.run net checkpoints batches).checkpoints batches.flatten) := by
  have deliveries := HeaderTree.offersFrom_snd net (HeaderTree.withCheckpoints net checkpoints) batches
  rw [← deliveries] at order ⊢
  refine HeaderTree.run_induct net checkpoints (P := fun t offered => ParentFirst net (offered.map Prod.snd) →
    Represents net t (settled net t.checkpoints (offered.map Prod.snd))) ?_ ?_ ?_ batches order
  · intro _
    rw [List.map_nil, settled_nil]
    exact (withCheckpoints_synced net checkpoints distinct).toRepresents
  · intro t offered header represents order
    rw [List.map_append] at order ⊢
    rw [HeaderTree.insertInner_checkpoints]
    exact (represents order.of_append).settled_insertInner order
  · intro t offered bestChain represents order
    have R := represents order
    exact ⟨R.toMapOf, R.heights_nodup, R.unreached, R.reached, R.tip, R.heaviest⟩

omit [LinearOrder H] in
/-- Only the set of deliveries matters to what they settle. -/
theorem settled_congr {delivered delivered' : List (Header H)}
    (same : ∀ header, header ∈ delivered ↔ header ∈ delivered') :
    settled net checkpoints delivered = settled net checkpoints delivered' := by
  have candidates : ∀ b, Candidate net checkpoints delivered b ↔
      Candidate net checkpoints delivered' b :=
    fun b => ⟨fun h => h.mono fun n => (same n).mp, fun h => h.mono fun n => (same n).mpr⟩
  ext b
  simp only [settled, Set.mem_ofPred_eq, candidates]

/-- The same headers, with the same heights and chain work. -/
def HeaderTree.SameEntries (t t' : HeaderTree H) : Prop :=
  ∀ hash, t.headers.lookup hash = t'.headers.lookup hash

namespace Represents

variable {t t' : HeaderTree H} {held : Set (List (Header H))}

/-- Two trees with the same checkpoints that represent the same branches hold the same
    entries, have reached the same checkpoint and carry the same work. -/
theorem agree (R : Represents net t held) (R' : Represents net t' held)
    (same : t.checkpoints = t'.checkpoints) :
    t.SameEntries t' ∧
      t.reachedCheckpoint = t'.reachedCheckpoint ∧ t.tipWork = t'.tipWork := by
  refine ⟨fun hash => ?_, ?_, ?_⟩
  · ext entry
    rw [R.lookup_iff, R'.lookup_iff]
  · cases reached : t.reachedCheckpoint with
    | none =>
        cases reached' : t'.reachedCheckpoint with
        | none => rfl
        | some r =>
            obtain ⟨c, hc, isCheckpoint, -⟩ := R'.reached r reached'
            exact absurd (same ▸ isCheckpoint) (R.unreached reached c hc)
    | some r =>
        obtain ⟨c, hc, isCheckpoint, length, -, highest⟩ := R.reached r reached
        cases reached' : t'.reachedCheckpoint with
        | none => exact absurd (same ▸ isCheckpoint) (R'.unreached reached' c hc)
        | some r' =>
            obtain ⟨c', hc', isCheckpoint', length', -, highest'⟩ := R'.reached r' reached'
            have le := highest c' hc' (same ▸ isCheckpoint')
            have le' := highest' c hc (same ▸ isCheckpoint)
            congr 1
            omega
  · obtain ⟨b, hb, -, -, -, -, -, work⟩ := R.tip
    obtain ⟨b', hb', -, -, -, -, -, work'⟩ := R'.tip
    apply Nat.le_antisymm
    · rw [← work]
      exact R'.heaviest b hb
    · rw [← work']
      exact R.heaviest b' hb'

end Represents

/-- Two runs that deliver the same headers, parents first, end with the same entries,
    the same reached checkpoint and the same work, whatever the order and batching. -/
theorem run_order_independent (net : Network H) (checkpoints : List (Checkpoint H))
    (distinct : (checkpoints.map Checkpoint.height).Nodup)
    (batches batches' : List (List (Header H)))
    (same : ∀ header, header ∈ batches.flatten ↔ header ∈ batches'.flatten)
    (order : ParentFirst net batches.flatten) (order' : ParentFirst net batches'.flatten) :
    (HeaderTree.run net checkpoints batches).SameEntries
        (HeaderTree.run net checkpoints batches') ∧
      (HeaderTree.run net checkpoints batches).reachedCheckpoint =
        (HeaderTree.run net checkpoints batches').reachedCheckpoint ∧
      (HeaderTree.run net checkpoints batches).tipWork =
        (HeaderTree.run net checkpoints batches').tipWork := by
  have R := run_settled distinct batches order
  have R' := run_settled distinct batches' order'
  rw [run_checkpoints] at R R'
  rw [settled_congr same] at R
  exact R.agree R' ((run_checkpoints _ _ _).trans (run_checkpoints _ _ _).symm)

/-- A branch pruned when the checkpoint block came last, refused when it came first. -/
theorem run_order_independent_mainnet :
    let net := Params.mainnet.network
    let fork := Params.mine net.genesis 1 1231006600 0x1d00ffff
    let child := Params.mine fork 3 1231006800 0x1d00ffff
    let block := Params.mine net.genesis 2 1231006700 0x1d00ffff
    let checkpoints := [⟨1, net.blockHash block⟩]
    (HeaderTree.run net checkpoints [[fork, child], [block]]).SameEntries
        (HeaderTree.run net checkpoints [[block, fork], [child]]) ∧
      (HeaderTree.run net checkpoints [[fork, child], [block]]).reachedCheckpoint =
        (HeaderTree.run net checkpoints [[block, fork], [child]]).reachedCheckpoint ∧
      (HeaderTree.run net checkpoints [[fork, child], [block]]).tipWork =
        (HeaderTree.run net checkpoints [[block, fork], [child]]).tipWork := by
  intro net fork child block checkpoints
  refine run_order_independent net checkpoints ?_ [[fork, child], [block]]
    [[block, fork], [child]] ?_ ?_ ?_
  · decide
  · intro header
    have moved : ([fork, child] ++ [block]).Perm ([block] ++ [fork, child]) := List.perm_append_comm
    exact moved.mem_iff
  · decide +kernel
  · decide +kernel

end P2PObserver
