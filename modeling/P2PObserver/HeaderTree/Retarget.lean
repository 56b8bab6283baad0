import P2PObserver.HeaderTree.Recoveries
import P2PObserver.HeaderTree.Tips
import P2PObserver.HeaderTree.Verdicts

/-! # Where a retarget starts

At the end of a period `walk_back` counts 2015 parents down from the header's own. Whatever has
been inserted and pruned, the branch under a held header goes down to genesis without a gap, so
the count ends on that branch and never at a hash the map lacks.
-/

namespace P2PObserver

variable {H : Type} [LinearOrder H] {net : Network H}

namespace HeaderTree

/-- The trees a program can come to: a new one, or one more call on another. A batch and a load
    are insertions and a rebuilt chain, and a save and the end of a load set the flag. -/
inductive Reachable (net : Network H) (checkpoints : List (Checkpoint H)) : HeaderTree H → Prop
  | start : Reachable net checkpoints (withCheckpoints net checkpoints)
  | inserted {t : HeaderTree H} (header : Header H) : Reachable net checkpoints t →
      Reachable net checkpoints (t.insertInner net header).1
  | rebuilt {t : HeaderTree H} : Reachable net checkpoints t →
      Reachable net checkpoints t.rebuildBestChain
  | asked {t : HeaderTree H} (missing : H) (proven : Bool) (now : Nat) :
      Reachable net checkpoints t → Reachable net checkpoints (t.recoveryDue missing proven now).2
  | marked {t : HeaderTree H} (dirty : Bool) : Reachable net checkpoints t →
      Reachable net checkpoints { t with dirty }

namespace Reachable

variable {checkpoints : List (Checkpoint H)} {t : HeaderTree H}

theorem insertEach (reachable : Reachable net checkpoints t) (headers : List (Header H)) :
    Reachable net checkpoints (t.insertEach net headers).1 := by
  induction headers generalizing t with
  | nil => exact reachable
  | cons header rest ih =>
      rw [insertEach_cons_tree]
      exact ih (reachable.inserted header)

theorem insertBatch (reachable : Reachable net checkpoints t) (headers : List (Header H)) :
    Reachable net checkpoints (t.insertBatch net headers).1 := by
  simp only [HeaderTree.insertBatch]
  split
  · exact reachable.insertEach headers
  · exact (reachable.insertEach headers).rebuilt

theorem run (net : Network H) (checkpoints : List (Checkpoint H))
    (batches : List (List (Header H))) :
    Reachable net checkpoints (HeaderTree.run net checkpoints batches) := by
  induction batches using List.reverseRecOn with
  | nil => exact .start
  | append_singleton batches headers ih =>
      rw [run_append]
      exact ih.insertBatch headers

theorem save (reachable : Reachable net checkpoints t) (codec : HeaderCodec H) (disk : Bool) :
    Reachable net checkpoints (t.save codec disk).1 := by
  simp only [HeaderTree.save]
  split
  · exact reachable
  · split
    · exact reachable.marked false
    · exact reachable

theorem loadRecords (reachable : Reachable net checkpoints t) {codec : HeaderCodec H}
    {records : List (List UInt8)} {loaded : HeaderTree H}
    (read : t.loadRecords codec net records = .ok loaded) : Reachable net checkpoints loaded := by
  induction records generalizing t with
  | nil =>
      cases read
      exact reachable
  | cons record rest ih =>
      rw [HeaderTree.loadRecords] at read
      split at read
      · cases read
      · exact ih (reachable.inserted _) read

theorem load {codec : HeaderCodec H} {file : FileRead} {loaded : HeaderTree H}
    (read : HeaderTree.load codec net checkpoints file = .ok loaded) :
    Reachable net checkpoints loaded := by
  cases file with
  | notFound =>
      cases read
      exact .start
  | failed => cases read
  | found data =>
      simp only [HeaderTree.load] at read
      split at read
      · cases read
      · cases records : (withCheckpoints net checkpoints).loadRecords codec net (records data) with
        | error => rw [records] at read; cases read
        | ok filled =>
            rw [records] at read
            cases read
            exact (Reachable.start.loadRecords records).rebuilt.marked _

/-- The best chain and the requests out are no part of what a tree represents. -/
theorem represents (distinct : (checkpoints.map Checkpoint.height).Nodup)
    (reachable : Reachable net checkpoints t) : ∃ held, Represents net t held := by
  induction reachable with
  | start => exact ⟨_, (withCheckpoints_synced net checkpoints distinct).toRepresents⟩
  | inserted header _ ih =>
      obtain ⟨held, R⟩ := ih
      exact R.insertInner header
  | @rebuilt t _ ih =>
      obtain ⟨held, R⟩ := ih
      refine ⟨held, ?_⟩
      rw [rebuildBestChain]
      split
      · exact ⟨R.toMapOf, R.heights_nodup, R.unreached, R.reached, R.tip, R.heaviest⟩
      · exact ⟨R.toMapOf, R.heights_nodup, R.unreached, R.reached, R.tip, R.heaviest⟩
  | @asked t missing proven now _ ih =>
      obtain ⟨held, R⟩ := ih
      rw [recoveryDue_snd]
      exact ⟨held, R.toMapOf, R.heights_nodup, R.unreached, R.reached, R.tip, R.heaviest⟩
  | marked dirty _ ih =>
      obtain ⟨held, R⟩ := ih
      exact ⟨held, R.toMapOf, R.heights_nodup, R.unreached, R.reached, R.tip, R.heaviest⟩

end Reachable

end HeaderTree

/-! ## Counting parents -/

namespace MapOf

variable {t : HeaderTree H} {held : Set (List (Header H))}

/-- The ancestors of a held header are the headers of its branch. -/
theorem ancestor_iff (M : MapOf net t.checkpoints t.headers held) {p : Header H}
    {rest : List (Header H)} (hb : p :: rest ∈ held) {hash : H} :
    t.Ancestor hash (net.blockHash p) ↔
      ∃ m below, m :: below <:+ p :: rest ∧ net.blockHash m = hash := by
  induction rest generalizing p with
  | nil =>
      constructor
      · intro path
        cases path with
        | self => exact ⟨p, [], List.suffix_refl _, rfl⟩
        | above childOf _ =>
            obtain ⟨entry, found, positive, -⟩ := childOf
            rw [M.lookup hb] at found
            cases found
            exact absurd positive (Nat.lt_irrefl 0)
      · rintro ⟨m, below, sub, key⟩
        rcases List.suffix_cons_iff.mp sub with eq | sub
        · rw [← key, (List.cons.inj eq).1]
          exact .self (HashMap.mem_iff_lookup.mpr ⟨_, M.lookup hb⟩)
        · simp at sub
  | cons q rest ih =>
      have link : p.prevBlockhash = net.blockHash q := (M.branch hb).link
      have down := ih (M.tail_mem hb (by simp))
      constructor
      · intro path
        cases path with
        | self => exact ⟨p, _, List.suffix_refl _, rfl⟩
        | above childOf path =>
            obtain ⟨entry, found, -, rfl⟩ := childOf
            rw [M.lookup hb] at found
            cases found
            have path : t.Ancestor hash p.prevBlockhash := path
            rw [link] at path
            obtain ⟨m, below, sub, key⟩ := down.mp path
            exact ⟨m, below, sub.trans (List.suffix_cons _ _), key⟩
      · rintro ⟨m, below, sub, key⟩
        rcases List.suffix_cons_iff.mp sub with eq | sub
        · rw [← key, (List.cons.inj eq).1]
          exact .self (HashMap.mem_iff_lookup.mpr ⟨_, M.lookup hb⟩)
        · exact .above ⟨_, M.lookup hb, Nat.succ_pos _, link⟩ (down.mpr ⟨m, below, sub, key⟩)

/-- Walking back ends at the one ancestor that many heights lower. -/
theorem walkBack_ancestor (M : MapOf net t.checkpoints t.headers held) {p : Header H}
    {rest : List (Header H)} (hb : p :: rest ∈ held) {steps : Nat} (le : steps ≤ rest.length) :
    ∃ entry, t.walkBack (net.blockHash p) steps = some entry ∧
      entry.height + steps = rest.length ∧
      t.headers.lookup (net.blockHash entry.header) = some entry ∧
      ∀ other found, t.headers.lookup other = some found → found.height = entry.height →
        (t.Ancestor other (net.blockHash p) ↔ found = entry) := by
  have inside : steps < (p :: rest).length := Nat.lt_succ_of_le le
  have sub : (p :: rest)[steps] :: rest.drop steps <:+ p :: rest := by
    have split := List.drop_eq_getElem_cons inside
    rw [List.drop_succ_cons] at split
    rw [← split]
    exact List.drop_suffix _ _
  have own := M.suffix_mem hb sub (by simp)
  refine ⟨_, M.walkBack_eq hb (List.getElem?_eq_getElem inside), ?_, M.lookup own, ?_⟩
  · simp only [entryOf, List.length_drop]
    omega
  · intro other found at_other level
    obtain ⟨m, below, hm, key, rfl⟩ := M.lookup_iff.mp at_other
    rw [M.ancestor_iff hb]
    constructor
    · rintro ⟨m', below', sub', key'⟩
      have same := net.blockHash_injective (key'.trans key.symm)
      subst same
      have length : (m' :: below').length = ((p :: rest)[steps] :: rest.drop steps).length := by
        have := M.eq_of_hash hm ((M.branch hb).suffix sub' (by simp)) rfl
        rw [← this]
        exact congrArg Nat.succ level
      have same := List.suffix_of_suffix_length_le sub' sub length.le
      have eq := same.eq_of_length length
      have own' := M.eq_of_hash hm ((M.branch hb).suffix sub' (by simp)) rfl
      rw [← own'] at eq
      obtain ⟨rfl, rfl⟩ := List.cons.inj eq
      rfl
    · intro eq
      have header : m = (p :: rest)[steps] := congrArg HeaderEntry.header eq
      exact ⟨_, _, sub, header ▸ key⟩

end MapOf

/-- On every tree a program can come to, a header on a held parent at the end of a period walks
    back to its own branch's first block of that period, and no such header is an orphan. -/
theorem reachable_retarget (net : Network H) (checkpoints : List (Checkpoint H))
    (distinct : (checkpoints.map Checkpoint.height).Nodup) {t : HeaderTree H}
    (reachable : t.Reachable net checkpoints) {header : Header H} {parent : HeaderEntry H}
    (found : t.headers.lookup header.prevBlockhash = some parent) :
    ((parent.height + 1) % PERIOD = 0 →
        ∃ first, t.walkBack header.prevBlockhash (PERIOD - 1) = some first ∧
          first.height + PERIOD = parent.height + 1 ∧
          t.headers.lookup (net.blockHash first.header) = some first ∧
          ∀ other entry, t.headers.lookup other = some entry → entry.height = first.height →
            (t.Ancestor other header.prevBlockhash ↔ entry = first)) ∧
      (t.expectedBitsAt net header (parent.height + 1) parent).isSome ∧
      t.validateHeader net header (parent.height + 1) parent ≠ .error .orphanHeader ∧
      (t.insertInner net header).2 ≠ .error .orphanHeader := by
  obtain ⟨held, R⟩ := reachable.represents distinct
  obtain ⟨p, rest, hb, link, rfl⟩ := R.lookup_iff.mp found
  have bits := R.toMapOf.expectedBitsAt_eq hb link.symm
  have verdict := R.toMapOf.validateHeader_eq hb link.symm
  have placed : t.validateHeader net header (rest.length + 1) (entryOf net p rest) ≠
      .error .orphanHeader := by
    intro orphan
    rw [verdict] at orphan
    exact (net.verdict_error orphan).1 rfl
  refine ⟨?_, ?_, placed, ?_⟩
  · intro opens
    have enough : PERIOD ≤ rest.length + 1 :=
      Nat.le_of_dvd (Nat.succ_pos _) (Nat.dvd_of_mod_eq_zero opens)
    obtain ⟨first, walked, height, own, only⟩ :=
      R.toMapOf.walkBack_ancestor hb (Nat.sub_le_of_le_add enough)
    rw [link] at walked only
    refine ⟨first, walked, ?_, own, only⟩
    have period : 0 < PERIOD := by decide
    have : (entryOf net p rest).height = rest.length := rfl
    omega
  · exact Option.isSome_iff_exists.mpr ⟨_, bits⟩
  · intro orphan
    rw [HeaderTree.insertInner] at orphan
    split at orphan
    · cases orphan
    · rw [found] at orphan
      simp only at orphan
      split at orphan
      · rename_i refused
        cases orphan
        exact placed refused
      · cases orphan

/-- On the lighter side of a fork in the last block of the first period. -/
theorem reachable_retarget_fork : ∃ t : HeaderTree (List Nat),
    t.Reachable Params.mainnet.network [] ∧ t.tip = Params.blockHash Tie.long₃ ∧
      ∃ first, t.walkBack Tie.short₂.prevBlockhash (PERIOD - 1) = some first ∧ first.height = 0 ∧
        t.Ancestor (Params.mainnet.network.blockHash first.header) Tie.short₂.prevBlockhash := by
  obtain ⟨held, B, -, short_held, -⟩ := Tie.built
  have reachable : HeaderTree.Reachable Params.mainnet.network []
      ((HeaderTree.withCheckpoints Params.mainnet.network []).insertEach
        Params.mainnet.network Tie.headers).1 :=
    HeaderTree.Reachable.start.insertEach Tie.headers
  generalize ((HeaderTree.withCheckpoints Params.mainnet.network []).insertEach
    Params.mainnet.network Tie.headers).1 = t at B reachable
  have parent_held : Tie.short₁ :: Tie.trunk ∈ held := B.represents.tail_mem short_held (by simp)
  have height : Tie.trunk.length = 2015 := by rw [Tie.trunk, Params.branch_length]
  have found := B.represents.toMapOf.lookup parent_held
  have link : Params.mainnet.network.blockHash Tie.short₁ = Tie.short₂.prevBlockhash := rfl
  rw [link] at found
  have opens : ((entryOf Params.mainnet.network Tie.short₁ Tie.trunk).height + 1) % PERIOD = 0 := by
    rw [entryOf, height]
    decide
  obtain ⟨first, walked, level, own, only⟩ :=
    (reachable_retarget _ [] (by simp) reachable found).1 opens
  refine ⟨t, reachable, B.tip, first, walked, ?_, (only _ _ own rfl).mpr rfl⟩
  simp only [entryOf, height, PERIOD] at level
  omega

end P2PObserver
