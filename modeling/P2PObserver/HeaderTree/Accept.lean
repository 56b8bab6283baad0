import P2PObserver.HeaderTree.Refinement

/-! # Accepting a header

Accepting grows the represented set by one branch. When the branch ends at a
checkpoint, pruning drops whatever strays from it, the tip moves to the checkpoint
block, and nothing above it is there to be orphaned.
-/

namespace P2PObserver

variable {H : Type} [LinearOrder H] {net : Network H}

namespace HeaderTree

omit [LinearOrder H] in
theorem heavier_eq_some {best : Option (Sigma fun _ : H => HeaderEntry H)}
    {e b : Sigma fun _ : H => HeaderEntry H} (chosen : heavier best e = some b) :
    b = e ∨ best = some b := by
  cases best with
  | none => exact .inl (Option.some.inj chosen).symm
  | some b' =>
      by_cases lighter : e.2.chainWork < b'.2.chainWork
      · rw [heavier, if_pos lighter] at chosen
        exact .inr chosen
      · rw [heavier, if_neg lighter] at chosen
        exact .inl (Option.some.inj chosen).symm

omit [LinearOrder H] in
/-- A fold of `heavier` ends at the one entry strictly heavier than every other. -/
theorem foldl_heavier_eq {top : Sigma fun _ : H => HeaderEntry H}
    {entries : List (Sigma fun _ : H => HeaderEntry H)}
    {best : Option (Sigma fun _ : H => HeaderEntry H)}
    (light : ∀ e ∈ entries, e ≠ top → e.2.chainWork < top.2.chainWork)
    (best_light : ∀ b, best = some b → b ≠ top → b.2.chainWork < top.2.chainWork)
    (here : top ∈ entries ∨ best = some top) : entries.foldl heavier best = some top := by
  induction entries generalizing best with
  | nil => simpa using here
  | cons e rest ih =>
      refine ih (fun e' inside => light e' (List.mem_cons_of_mem _ inside)) ?_ ?_
      · intro b chosen ne
        rcases heavier_eq_some chosen with rfl | already
        · exact light b List.mem_cons_self ne
        · exact best_light b already ne
      · by_cases this : e = top
        · subst this
          right
          cases best with
          | none => rfl
          | some b =>
              have le : b.2.chainWork ≤ e.2.chainWork := by
                by_cases same : b = e
                · rw [same]
                · exact (best_light b rfl same).le
              rw [heavier, if_neg (Nat.not_lt.mpr le)]
        · rcases here with member | rfl
          · exact .inl ((List.mem_cons.mp member).resolve_left (Ne.symm this))
          · right
            rw [heavier, if_pos (light e List.mem_cons_self this)]

theorem noteCheckpoint_of_not_checkpoint {t : HeaderTree H} {n : Header H}
    {rest : List (Header H)} (plain : ¬ IsCheckpoint net t.checkpoints (n :: rest)) :
    t.noteCheckpoint (net.blockHash n) rest.length = t := by
  have none_listed : t.checkpoints.any
      (fun c => c.height == rest.length && c.hash == net.blockHash n) = false := by
    rw [List.any_eq_false]
    intro c listed both
    simp only [Bool.and_eq_true, beq_iff_eq] at both
    exact plain ⟨c, listed, both⟩
  simp [noteCheckpoint, none_listed]

theorem noteCheckpoint_of_checkpoint {t : HeaderTree H} {n : Header H}
    {rest : List (Header H)} (reached : IsCheckpoint net t.checkpoints (n :: rest))
    (above : ∀ r, t.reachedCheckpoint = some r → r < rest.length) :
    t.noteCheckpoint (net.blockHash n) rest.length =
      ({ t with reachedCheckpoint := some rest.length } : HeaderTree H).pruneBelowCheckpoint := by
  obtain ⟨c, listed, height, hash⟩ := reached
  have some_listed : t.checkpoints.any
      (fun c => c.height == rest.length && c.hash == net.blockHash n) = true := by
    rw [List.any_eq_true]
    exact ⟨c, listed, by simp [height, hash]⟩
  have new : t.reachedCheckpoint.any (fun r => rest.length ≤ r) = false := by
    rw [Option.any_eq_false]
    intro r eq
    have := above r eq
    simpa using this
  simp [noteCheckpoint, some_listed, new]

/-- Rebuilding reads the tip's branch off the map. -/
theorem rebuildBestChain_eq {t : HeaderTree H} {held : Set (List (Header H))}
    (M : MapOf net t.checkpoints t.headers held) {b : List (Header H)} (hb : b ∈ held)
    (tip : AtTip net t b) :
    t.rebuildBestChain = { t with bestChain := (b.map net.blockHash).reverse } := by
  obtain ⟨n, rest, rfl, key, height, -⟩ := tip
  have walk := M.chainFrom_eq hb (Nat.lt_succ_self rest.length)
  rw [key, Nat.succ_eq_add_one, height] at walk
  simp only [rebuildBestChain, walk]

end HeaderTree

namespace MapOf

variable {t : HeaderTree H} {held : Set (List (Header H))}

/-- Pruning at a checkpoint that tops everything held keeps the branches
    comparable with it, and the tip on one of them. -/
theorem pruneBelowCheckpoint (M : MapOf net t.checkpoints t.headers held)
    (distinct : (t.checkpoints.map Checkpoint.height).Nodup) {c : Header H}
    {rest : List (Header H)} (hc : c :: rest ∈ held)
    (isCheckpoint : IsCheckpoint net t.checkpoints (c :: rest))
    (here : t.reachedCheckpoint = some rest.length)
    (top : ∀ b ∈ held, b.length ≤ (c :: rest).length) {b : List (Header H)} (hb : b ∈ held)
    (tip : AtTip net t b) :
    MapOf net t.pruneBelowCheckpoint.checkpoints t.pruneBelowCheckpoint.headers
        {s | s ∈ held ∧ Lineage.Comparable s (c :: rest)} ∧
      t.pruneBelowCheckpoint.reachedCheckpoint = some rest.length ∧
      (AtTip net t.pruneBelowCheckpoint (c :: rest) ∧
          BestChainIs net t.pruneBelowCheckpoint (c :: rest) ∨
        AtTip net t.pruneBelowCheckpoint b ∧ Lineage.Comparable b (c :: rest) ∧
          (BestChainIs net t b → BestChainIs net t.pruneBelowCheckpoint b)) := by
  obtain ⟨checkpoint, listed, height, hash⟩ := isCheckpoint
  have found : t.checkpoints.find? (fun c => c.height == rest.length) = some checkpoint :=
    (find_checkpoint_iff distinct).mpr ⟨listed, height⟩
  have kept := M.keepAncestors hc height hash top
  set pruned := HeaderTree.keepAncestors t.headers checkpoint with pruned_def
  by_cases smaller : 0 < HashMap.size t.headers - HashMap.size pruned
  · set cut : HeaderTree H := { t with
      headers := pruned
      pruned := t.pruned + (HashMap.size t.headers - HashMap.size pruned)
      dirty := true } with cut_def
    have result : t.pruneBelowCheckpoint = cut.replaceTip.rebuildBestChain := by
      simp only [HeaderTree.pruneBelowCheckpoint, here, found, ← pruned_def, if_pos smaller,
        cut_def]
    rw [result]
    by_cases survives : t.tip ∈ pruned
    · have tip_kept : cut.replaceTip = cut := by
        simp only [HeaderTree.replaceTip]
        exact if_pos survives
      obtain ⟨n, below, rfl, key, rest'⟩ := tip
      obtain ⟨m, below', hs, key'⟩ := kept.mem_iff.mp survives
      have same := kept.eq_of_hash hs (M.branch hb) (key'.trans key.symm)
      rw [same] at hs
      have at_tip : AtTip net cut (n :: below) := ⟨n, below, rfl, key, rest'⟩
      rw [tip_kept, HeaderTree.rebuildBestChain_eq (t := cut) kept hs at_tip]
      exact ⟨kept, here, .inr ⟨at_tip, hs.2, fun _ => rfl⟩⟩
    · have top_entry : HeaderTree.heaviest pruned.entries =
          some ⟨net.blockHash c, entryOf net c rest⟩ := by
        refine HeaderTree.foldl_heavier_eq ?_ (by simp)
          (.inl (HashMap.mem_entries_iff.mpr (kept.lookup ⟨hc, .refl _⟩)))
        rintro ⟨x, e⟩ inside ne
        obtain ⟨n, below, hs, rfl, rfl⟩ := kept.lookup_iff.mp (HashMap.mem_entries_iff.mp inside)
        refine net.chainWork_lt_of_suffix (hs.2.suffix_of_length_le (top _ hs.1)) fun same => ?_
        obtain ⟨rfl, rfl⟩ := List.cons.inj same
        exact ne rfl
      have moved : cut.replaceTip = { cut with
          tip := net.blockHash c
          tipHeight := rest.length
          tipWork := net.chainWork (c :: rest) } := by
        simp only [HeaderTree.replaceTip]
        rw [if_neg survives]
        simp only [cut_def, top_entry]
        rfl
      have at_tip : AtTip net cut.replaceTip (c :: rest) := by
        rw [moved]
        exact ⟨c, rest, rfl, rfl, rfl, rfl⟩
      have kept' : MapOf net cut.replaceTip.checkpoints cut.replaceTip.headers
          {s | s ∈ held ∧ Lineage.Comparable s (c :: rest)} := by
        rw [moved]
        exact kept
      rw [HeaderTree.rebuildBestChain_eq kept' ⟨hc, .refl _⟩ at_tip]
      refine ⟨kept', ?_, .inl ⟨at_tip, rfl⟩⟩
      rw [moved]
      exact here
  · have result : t.pruneBelowCheckpoint = { t with headers := pruned } := by
      simp only [HeaderTree.pruneBelowCheckpoint, here, found, ← pruned_def, if_neg smaller]
    have comparable : Lineage.Comparable b (c :: rest) :=
      (M.mem_of_size_le kept (fun s hs => hs.1) (by omega) hb).2
    rw [result]
    exact ⟨kept, here, .inr ⟨tip, comparable, id⟩⟩

end MapOf

namespace Placeable

variable {t : HeaderTree H} {held : Set (List (Header H))} {header p : Header H}
  {rest : List (Header H)}

theorem admissible (h : Placeable net t held header p rest) (R : Represents net t held) :
    Admissible net t.checkpoints (header :: p :: rest) :=
  (R.admissible _ h.parent).cons h.link h.off h.sound

/-- Nothing held is taller than a new checkpoint block: it would descend from it. -/
theorem checkpoint_tops (h : Placeable net t held header p rest) (R : Represents net t held)
    (isCheckpoint : IsCheckpoint net t.checkpoints (header :: p :: rest)) :
    ∀ b ∈ held, b.length ≤ (header :: p :: rest).length := by
  intro b hb
  by_contra taller
  have through := (R.admissible b hb).checkpoint_suffix (h.admissible R).isBranch isCheckpoint
    (by omega)
  exact h.fresh _ (R.toMapOf.suffix_mem hb through (by simp))

end Placeable

namespace Represents

variable {t : HeaderTree H} {held : Set (List (Header H))} {header p : Header H}
  {rest : List (Header H)}

/-- The map after an accepted header, before anything is said about checkpoints. -/
theorem insert_map (R : Represents net t held) (h : Placeable net t held header p rest) :
    MapOf net t.checkpoints
      (t.headers.insert (net.blockHash header) (entryOf net header (p :: rest)))
      (Insert.insert (header :: p :: rest) held) :=
  R.toMapOf.insert h.parent (h.admissible R) (h.fresh _)

theorem accept_eq (t : HeaderTree H) (header p : Header H) (rest : List (Header H)) :
    t.accept net header (entryOf net p rest) =
      let inserted : HeaderTree H := { t with
        headers := t.headers.insert (net.blockHash header) (entryOf net header (p :: rest))
        recovery := t.recovery.erase (net.blockHash header) }
      let noted := inserted.noteCheckpoint (net.blockHash header) (p :: rest).length
      let moved := if noted.tipWork < net.chainWork (header :: p :: rest) then
          { noted with
            tip := net.blockHash header
            tipHeight := (p :: rest).length
            tipWork := net.chainWork (header :: p :: rest) }
        else noted
      { moved with dirty := true } := by
  have work : (entryOf net p rest).chainWork + net.work header =
      net.chainWork (header :: p :: rest) := by
    rw [net.chainWork_cons]
    exact Nat.add_comm _ _
  simp only [HeaderTree.accept, work]
  rfl

/-- Accepting a header that is no checkpoint adds its branch and moves the tip only
    to something strictly heavier. -/
theorem accept_plain (R : Represents net t held) (h : Placeable net t held header p rest)
    (plain : ¬ IsCheckpoint net t.checkpoints (header :: p :: rest)) :
    Represents net (t.accept net header (entryOf net p rest))
        (Insert.insert (header :: p :: rest) held) ∧
      (t.accept net header (entryOf net p rest)).bestChain = t.bestChain ∧
      (t.accept net header (entryOf net p rest)).reachedCheckpoint = t.reachedCheckpoint ∧
      (t.accept net header (entryOf net p rest)).tip =
        if t.tipWork < net.chainWork (header :: p :: rest) then net.blockHash header
        else t.tip := by
  have M := R.insert_map h
  rw [accept_eq]
  simp only [HeaderTree.noteCheckpoint_of_not_checkpoint (t := { t with
    headers := t.headers.insert (net.blockHash header) (entryOf net header (p :: rest))
    recovery := t.recovery.erase (net.blockHash header) }) plain]
  have unreached : t.reachedCheckpoint = none →
      ∀ b ∈ Insert.insert (header :: p :: rest) held, ¬ IsCheckpoint net t.checkpoints b := by
    rintro unreached b (rfl | hb)
    · exact plain
    · exact R.unreached unreached b hb
  have reached : ∀ r, t.reachedCheckpoint = some r →
      ∃ c ∈ Insert.insert (header :: p :: rest) held,
        IsCheckpoint net t.checkpoints c ∧ c.length = r + 1 ∧
          (∀ b ∈ Insert.insert (header :: p :: rest) held, Lineage.Comparable b c) ∧
          ∀ b ∈ Insert.insert (header :: p :: rest) held, IsCheckpoint net t.checkpoints b →
            b.length ≤ c.length := by
    intro r eq
    obtain ⟨c, hc, isCheckpoint, length, comparable, highest⟩ := R.reached r eq
    refine ⟨c, .inr hc, isCheckpoint, length, ?_, ?_⟩
    · rintro b (rfl | hb)
      · have := h.above r eq
        exact (comparable _ h.parent).cons_of_length_le (by omega)
      · exact comparable b hb
    · rintro b (rfl | hb) isCheckpoint'
      · exact absurd isCheckpoint' plain
      · exact highest b hb isCheckpoint'
  by_cases heavier : t.tipWork < net.chainWork (header :: p :: rest)
  · simp only [if_pos heavier]
    refine ⟨⟨M, R.heights_nodup, unreached, reached, ?_, ?_⟩, trivial, trivial, trivial⟩
    · exact ⟨_, .inl rfl, header, p :: rest, rfl, rfl, rfl, rfl⟩
    · rintro b (rfl | hb)
      · exact le_rfl
      · exact (R.heaviest b hb).trans heavier.le
  · simp only [if_neg heavier]
    refine ⟨⟨M, R.heights_nodup, unreached, reached, ?_, ?_⟩, trivial, trivial, trivial⟩
    · obtain ⟨b, hb, tip⟩ := R.tip
      exact ⟨b, .inr hb, tip⟩
    · rintro b (rfl | hb)
      · exact Nat.le_of_not_lt heavier
      · exact R.heaviest b hb

/-- Accepting a checkpoint block keeps what is comparable with its branch and makes
    it the tip. -/
theorem accept_checkpoint (R : Represents net t held) (h : Placeable net t held header p rest)
    (isCheckpoint : IsCheckpoint net t.checkpoints (header :: p :: rest)) :
    Represents net (t.accept net header (entryOf net p rest))
        {s | s ∈ Insert.insert (header :: p :: rest) held ∧
          Lineage.Comparable s (header :: p :: rest)} ∧
      (t.accept net header (entryOf net p rest)).reachedCheckpoint = some (p :: rest).length ∧
      (t.accept net header (entryOf net p rest)).tip = net.blockHash header := by
  set b := header :: p :: rest with b_def
  set inserted : HeaderTree H := { t with
    headers := t.headers.insert (net.blockHash header) (entryOf net header (p :: rest))
    recovery := t.recovery.erase (net.blockHash header) } with inserted_def
  have noted_eq := HeaderTree.noteCheckpoint_of_checkpoint (t := inserted) isCheckpoint h.above
  have tops : ∀ s ∈ Insert.insert b held, s.length ≤ b.length := by
    rintro s (rfl | hs)
    · exact le_rfl
    · exact h.checkpoint_tops R isCheckpoint s hs
  obtain ⟨old, old_mem, old_tip⟩ := R.tip
  obtain ⟨M, reached, tip⟩ := MapOf.pruneBelowCheckpoint
    (t := { inserted with reachedCheckpoint := some (p :: rest).length }) (R.insert_map h)
    R.heights_nodup (.inl rfl) isCheckpoint rfl tops (b := old) (.inr old_mem) old_tip
  rw [← noted_eq] at M reached tip
  set noted := inserted.noteCheckpoint (net.blockHash header) (p :: rest).length with noted_def
  have same := HeaderTree.noteCheckpoint_sameRefusals inserted (net.blockHash header)
    (p :: rest).length
  rw [← noted_def] at same
  set kept := {s | s ∈ Insert.insert b held ∧ Lineage.Comparable s b}
  have strict : ∀ s ∈ kept, s ≠ b → net.chainWork s < net.chainWork b := by
    intro s hs ne
    exact net.chainWork_lt_of_suffix (hs.2.suffix_of_length_le (tops s hs.1)) ne
  have le : ∀ s ∈ kept, net.chainWork s ≤ net.chainWork b := by
    intro s hs
    by_cases eq : s = b
    · rw [eq]
    · exact (strict s hs eq).le
  have at_tip : AtTip net (t.accept net header (entryOf net p rest)) b ∧
      (t.accept net header (entryOf net p rest)).checkpoints = noted.checkpoints ∧
      (t.accept net header (entryOf net p rest)).headers = noted.headers ∧
      (t.accept net header (entryOf net p rest)).reachedCheckpoint = noted.reachedCheckpoint := by
    rw [accept_eq, ← inserted_def]
    simp only [← noted_def, ← b_def]
    rcases tip with ⟨here, -⟩ | ⟨there, comparable, -⟩
    · obtain ⟨n, below, eq, key, height, work⟩ := here
      rw [if_neg (by rw [work]; exact lt_irrefl _)]
      exact ⟨⟨n, below, eq, key, height, work⟩, rfl, rfl, rfl⟩
    · obtain ⟨n, below, rfl, -, -, work⟩ := there
      have lighter : noted.tipWork < net.chainWork b := by
        rw [← work]
        refine strict _ ⟨.inr old_mem, comparable⟩ ?_
        intro eq
        exact h.fresh _ (by rw [← b_def, ← eq]; exact old_mem)
      rw [if_pos lighter]
      exact ⟨⟨header, p :: rest, rfl, rfl, rfl, rfl⟩, rfl, rfl, rfl⟩
  obtain ⟨at_tip, checkpoints_eq, headers_eq, reached_eq⟩ := at_tip
  have checkpoints_eq' := checkpoints_eq.trans same.checkpoints
  have work : (t.accept net header (entryOf net p rest)).tipWork = net.chainWork b := by
    obtain ⟨n, below, -, -, -, work⟩ := at_tip
    exact work.symm
  refine ⟨⟨?_, ?_, ?_, ?_, ⟨b, ⟨.inl rfl, .refl b⟩, at_tip⟩, ?_⟩, ?_, ?_⟩
  · rw [checkpoints_eq, headers_eq]
    exact M
  · rw [checkpoints_eq']
    exact R.heights_nodup
  · intro unreached
    rw [reached_eq, reached] at unreached
    cases unreached
  · intro r eq
    rw [reached_eq, reached] at eq
    obtain rfl := Option.some.inj eq
    rw [checkpoints_eq']
    exact ⟨b, ⟨.inl rfl, .refl b⟩, isCheckpoint, rfl, fun s hs => hs.2,
      fun s hs _ => tops s hs.1⟩
  · rw [work]
    exact le
  · rw [reached_eq, reached]
  · obtain ⟨n, below, eq, key, -⟩ := at_tip
    obtain ⟨rfl, -⟩ := List.cons.inj eq
    exact key.symm

/-- Accepting a header is `growWith`. -/
theorem accept (R : Represents net t held) (h : Placeable net t held header p rest) :
    Represents net (t.accept net header (entryOf net p rest))
      (growWith net t.checkpoints held (header :: p :: rest)) := by
  by_cases isCheckpoint : IsCheckpoint net t.checkpoints (header :: p :: rest)
  · have grown : growWith net t.checkpoints held (header :: p :: rest) =
        {s | s ∈ Insert.insert (header :: p :: rest) held ∧
          Lineage.Comparable s (header :: p :: rest)} := by
      ext s
      simp [growWith, isCheckpoint, Set.mem_insert_iff, or_comm]
    rw [grown]
    exact (R.accept_checkpoint h isCheckpoint).1
  · have grown : growWith net t.checkpoints held (header :: p :: rest) =
        Insert.insert (header :: p :: rest) held := by
      ext s
      simp [growWith, isCheckpoint, Set.mem_insert_iff, or_comm]
    rw [grown]
    exact (R.accept_plain h isCheckpoint).1

/-- An accepted header becomes the tip, or the tip and its chain stay. -/
theorem accept_tip (R : Represents net t held) (h : Placeable net t held header p rest) :
    (t.accept net header (entryOf net p rest)).tip = net.blockHash header ∨
      (t.accept net header (entryOf net p rest)).tip = t.tip ∧
        (t.accept net header (entryOf net p rest)).bestChain = t.bestChain := by
  by_cases isCheckpoint : IsCheckpoint net t.checkpoints (header :: p :: rest)
  · exact .inl (R.accept_checkpoint h isCheckpoint).2.2
  · obtain ⟨-, chain, -, tip⟩ := R.accept_plain h isCheckpoint
    rw [tip]
    by_cases heavier : t.tipWork < net.chainWork (header :: p :: rest)
    · exact .inl (if_pos heavier)
    · exact .inr ⟨if_neg heavier, chain⟩

/-- The reached checkpoint after accepting: the new block's, if it is one. -/
theorem accept_reached (R : Represents net t held) (h : Placeable net t held header p rest) :
    (IsCheckpoint net t.checkpoints (header :: p :: rest) →
      (t.accept net header (entryOf net p rest)).reachedCheckpoint = some (p :: rest).length) ∧
    (¬ IsCheckpoint net t.checkpoints (header :: p :: rest) →
      (t.accept net header (entryOf net p rest)).reachedCheckpoint = t.reachedCheckpoint) :=
  ⟨fun isCheckpoint => (R.accept_checkpoint h isCheckpoint).2.1,
    fun plain => (R.accept_plain h plain).2.2.1⟩

/-- When nothing held strays from the new block, checkpoint or not, it becomes the tip
    exactly if it is heavier. -/
theorem accept_tip_of_comparable (R : Represents net t held)
    (h : Placeable net t held header p rest)
    (tolerated : IsCheckpoint net t.checkpoints (header :: p :: rest) →
      ∀ b ∈ held, Lineage.Comparable b (header :: p :: rest)) :
    (t.accept net header (entryOf net p rest)).tip =
      if t.tipWork < net.chainWork (header :: p :: rest) then net.blockHash header else t.tip := by
  by_cases isCheckpoint : IsCheckpoint net t.checkpoints (header :: p :: rest)
  · obtain ⟨old, held_old, n, below, rfl, -, -, work⟩ := R.tip
    have under := (tolerated isCheckpoint _ held_old).suffix_of_length_le
      (h.checkpoint_tops R isCheckpoint _ held_old)
    have lighter : t.tipWork < net.chainWork (header :: p :: rest) := by
      rw [← work]
      refine net.chainWork_lt_of_suffix under fun same => h.fresh (p :: rest) ?_
      rw [← same]
      exact held_old
    rw [if_pos lighter]
    exact (R.accept_checkpoint h isCheckpoint).2.2
  · exact (R.accept_plain h isCheckpoint).2.2.2

end Represents

end P2PObserver
