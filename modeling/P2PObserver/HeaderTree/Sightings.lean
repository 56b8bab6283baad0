import P2PObserver.HeaderTree.Verdicts
import P2PObserver.Lib.Run

/-! # First sightings

A block looked up before its header is inserted is found unknown, and stays so until the tree
has placed the header or remembered its refusal. From then on it is known, unless pruning a
checkpoint's rivals drops it.
-/

namespace P2PObserver

variable {H : Type} [LinearOrder H] {net : Network H}

namespace HeaderTree

/-- What is offered and done to a tree: some blocks are looked up, or headers are inserted. -/
inductive SightingStep (H : Type) where
  | lookUp (hashes : List H)
  | insert (headers : List (Header H))

/-- The blocks a tree's lookups have found unknown, and those of them it still has no word on. -/
structure Sightings (H : Type) where
  tree : HeaderTree H
  sighted : List H
  undecided : List H

/-- Whether an offer is decided: everything but an orphan is placed or refused. -/
def decides (net : Network H) (t : HeaderTree H) (header : Header H) : Bool :=
  t.verdictOn net header != some .orphanHeader

/-- Whether an offer has the tree drop a block, with nothing to remember it by. -/
def prunes (net : Network H) (t : HeaderTree H) (header : Header H) (hash : H) : Bool :=
  decide (hash ∈ t.headers) && !(t.insertInner net header).1.seen hash

namespace Sightings

def start (tree : HeaderTree H) : Sightings H := ⟨tree, [], []⟩

/-- One header, offered to the tree. -/
def offered (net : Network H) (s : Sightings H) (header : Header H) : Sightings H where
  tree := (s.tree.insertInner net header).1
  sighted := s.sighted
  undecided := s.undecided.filter (fun hash =>
      !(s.tree.decides net header && decide (net.blockHash header = hash))) ++
    s.sighted.filter (s.tree.prunes net header)

def unseen (s : Sightings H) (hashes : List H) : List H :=
  hashes.filter fun hash => !s.tree.seen hash

def step (net : Network H) (s : Sightings H) : SightingStep H → Sightings H
  | .lookUp hashes =>
      { s with sighted := s.sighted ++ s.unseen hashes, undecided := s.undecided ++ s.unseen hashes }
  | .insert headers =>
      { headers.foldl (offered net) s with tree := (s.tree.insertBatch net headers).1 }

/-- A lookup of no unknown block twice, nor of one that was found unknown and is undecided. -/
def Settled (s : Sightings H) : SightingStep H → Prop
  | .lookUp hashes => (s.unseen hashes).Nodup ∧ ∀ hash ∈ hashes, hash ∉ s.undecided
  | .insert _ => True

instance (s : Sightings H) : (step : SightingStep H) → Decidable (s.Settled step)
  | .lookUp hashes => inferInstanceAs
      (Decidable ((s.unseen hashes).Nodup ∧ ∀ hash ∈ hashes, hash ∉ s.undecided))
  | .insert _ => .isTrue trivial

end Sightings

/-- The batches among the steps. -/
def insertions (steps : List (SightingStep H)) : List (List (Header H)) :=
  steps.filterMap fun
    | .lookUp _ => none
    | .insert headers => some headers

/-! ## One offer -/

variable {t : HeaderTree H} {given : List (HeaderTree H × Header H)} {header : Header H}

/-- A decided header is known to the tree. -/
theorem seen_of_decides (represents : ∃ held, Represents net t held)
    (remembers : RemembersAll net (t.insertInner net header).1 (given ++ [(t, header)]))
    (few : refusals net (given ++ [(t, header)]) ≤ REJECTED_REMEMBERED)
    (decided : t.decides net header = true) :
    (t.insertInner net header).1.seen (net.blockHash header) = true := by
  obtain ⟨held, R⟩ := represents
  have placed (held' : Set (List (Header H)))
      (R' : Represents net (t.insertInner net header).1 held') {below : List (Header H)}
      (member : header :: below ∈ held') :
      (t.insertInner net header).1.seen (net.blockHash header) = true := by
    have inside := R'.mem_iff.mpr ⟨header, below, member, rfl⟩
    simp [seen, inside]
  have refused (told : t.refuses net header = true) :
      (t.insertInner net header).1.seen (net.blockHash header) = true := by
    have inside := (remembers.mem_iff few (net.blockHash header)).mpr
      ⟨(t, header), by simp, rfl, told⟩
    simp [seen, inside]
  have outcome := R.insertInner_outcome header
  have verdict := verdictOn_eq net t header
  generalize (t.insertInner net header).1 = t', (t.insertInner net header).2 = result
    at outcome verdict placed refused ⊢
  cases outcome with
  | known member => exact placed held R member
  | accepted ok => exact placed _ (R.accept ok) ⟨.inr rfl, fun _ => .inl List.suffix_rfl⟩
  | unplaced | refused =>
      apply refused
      unfold decides at decided
      unfold refuses
      rw [verdict] at decided ⊢
      unfold errorOf at decided ⊢
      unfold HeaderError.isOtherChain
      simp only [Option.any_some]
      split <;> simp_all

/-- What the tree knows it goes on knowing, but for what it prunes. -/
theorem seen_insertInner (remembers : RemembersAll net t given)
    (remembers' : RemembersAll net (t.insertInner net header).1 (given ++ [(t, header)]))
    (few : refusals net (given ++ [(t, header)]) ≤ REJECTED_REMEMBERED) {hash : H}
    (seen : t.seen hash = true) (kept : t.prunes net header hash = false) :
    (t.insertInner net header).1.seen hash = true := by
  have fewer : refusals net given ≤ REJECTED_REMEMBERED := by
    unfold refusals at few ⊢
    rw [List.countP_append] at few
    omega
  by_cases held : hash ∈ t.headers
  · simpa [prunes, held] using kept
  · have refused : hash ∈ t.rejected := by simpa [HeaderTree.seen, held] using seen
    obtain ⟨offer, listed, rest⟩ := (remembers.mem_iff fewer hash).mp refused
    have still := (remembers'.mem_iff few hash).mpr ⟨offer, List.mem_append_left _ listed, rest⟩
    simp [HeaderTree.seen, still]

/-! ## Every step -/

namespace Sightings

/-- What the steps keep, while there is room for every refusal: what has been sighted and is
    decided the tree knows, and nothing has been sighted twice. -/
structure Sound (net : Network H) (s : Sightings H) (given : List (HeaderTree H × Header H)) :
    Prop where
  represents : ∃ held, Represents net s.tree held
  remembers : RemembersAll net s.tree given
  knows : refusals net given ≤ REJECTED_REMEMBERED → ∀ hash ∈ s.sighted, hash ∉ s.undecided →
    s.tree.seen hash = true
  once : refusals net given ≤ REJECTED_REMEMBERED → s.sighted.Nodup

variable {s : Sightings H}

theorem Sound.offered (sound : s.Sound net given) (header : Header H) :
    (s.offered net header).Sound net (given ++ [(s.tree, header)]) := by
  obtain ⟨represents, remembers⟩ :=
    insertInner_remembered header ⟨sound.represents, sound.remembers⟩
  have fewer (few : refusals net (given ++ [(s.tree, header)]) ≤ REJECTED_REMEMBERED) :
      refusals net given ≤ REJECTED_REMEMBERED := by
    unfold refusals at few ⊢
    rw [List.countP_append] at few
    omega
  refine ⟨represents, remembers, fun few hash sighted settled => ?_,
    fun few => sound.once (fewer few)⟩
  simp only [Sightings.offered, List.mem_append, List.mem_filter, not_or, not_and] at sighted settled
  obtain ⟨undecided, kept⟩ := settled
  by_cases new : hash ∈ s.undecided
  · have decided : s.tree.decides net header = true ∧ net.blockHash header = hash := by
      simpa using undecided new
    obtain ⟨decided, rfl⟩ := decided
    exact seen_of_decides sound.represents remembers few decided
  · exact seen_insertInner sound.remembers remembers few
      (sound.knows (fewer few) hash sighted new) (by simpa using kept sighted)

theorem Sound.insertEach (sound : s.Sound net given) (headers : List (Header H)) :
    (headers.foldl (Sightings.offered net) s).Sound net
      (given ++ s.tree.offersEach net headers) := by
  induction headers generalizing s given with
  | nil => simpa [offersEach] using sound
  | cons header rest ih =>
      have done := ih (sound.offered header)
      rw [List.append_assoc] at done
      exact done

theorem tree_foldl_offered (s : Sightings H) (headers : List (Header H)) :
    (headers.foldl (Sightings.offered net) s).tree = (s.tree.insertEach net headers).1 := by
  induction headers generalizing s with
  | nil => rfl
  | cons header rest ih =>
      rw [List.foldl_cons, ih, insertEach_cons_tree]
      rfl

theorem sighted_insert (s : Sightings H) (headers : List (Header H)) :
    (s.step net (.insert headers)).sighted = s.sighted := by
  show (headers.foldl (Sightings.offered net) s).sighted = s.sighted
  induction headers generalizing s with
  | nil => rfl
  | cons header rest ih => exact ih (s.offered net header)

theorem Sound.insert (sound : s.Sound net given) (headers : List (Header H)) :
    (s.step net (.insert headers)).Sound net (given ++ s.tree.offersEach net headers) := by
  have each := sound.insertEach headers
  obtain ⟨bestChain, rebuilt⟩ := insertBatch_eq net s.tree headers
  rw [← tree_foldl_offered] at rebuilt
  have after : s.step net (.insert headers) = { headers.foldl (Sightings.offered net) s with
      tree := { (headers.foldl (Sightings.offered net) s).tree with bestChain } } := by
    rw [← rebuilt]
    rfl
  rw [after]
  obtain ⟨represents, remembers⟩ :=
    rebuilt_remembered bestChain ⟨each.represents, each.remembers⟩
  exact ⟨represents, remembers, each.knows, each.once⟩

theorem Sound.lookUp (sound : s.Sound net given) {hashes : List H}
    (settled : s.Settled (.lookUp hashes)) : (s.step net (.lookUp hashes)).Sound net given := by
  obtain ⟨distinct, settled⟩ := settled
  refine ⟨sound.represents, sound.remembers, fun few hash sighted decided => ?_, fun few => ?_⟩
  · simp only [step, List.mem_append, not_or] at sighted decided
    exact sound.knows few hash (sighted.resolve_right decided.2) decided.1
  · apply (sound.once few).append distinct
    intro hash sighted unseen
    simp only [Sightings.unseen, List.mem_filter, Bool.not_eq_true'] at unseen
    have seen := sound.knows few hash sighted (settled hash unseen.1)
    rw [seen] at unseen
    cases unseen.2

/-- Steps that look nothing up before its time find no block unknown twice. -/
theorem Sound.runFrom {steps : List (SightingStep H)} (sound : s.Sound net given)
    (settled : Run.Along (step net) Settled s steps) :
    (Run.runFrom (step net) s steps).Sound net
      (given ++ s.tree.offersFrom net (insertions steps)) := by
  induction steps generalizing s given with
  | nil => simpa [insertions, offersFrom] using sound
  | cons first rest ih =>
      obtain ⟨here, later⟩ := settled
      cases first with
      | lookUp hashes => exact ih (sound.lookUp here) later
      | insert headers =>
          have done := ih (sound.insert headers) later
          rw [List.append_assoc] at done
          exact done

end Sightings

theorem offers_append (net : Network H) (checkpoints : List (Checkpoint H))
    (batches more : List (List (Header H))) :
    offers net checkpoints (batches ++ more) =
      offers net checkpoints batches ++ (run net checkpoints batches).offersFrom net more := by
  unfold offers run
  generalize withCheckpoints net checkpoints = t
  induction batches generalizing t with
  | nil => rfl
  | cons headers rest ih =>
      rw [List.cons_append, offersFrom, offersFrom, ih, List.append_assoc]
      rfl

end HeaderTree

/-- From a tree that has been given some batches on, while there is room for every refusal, no
    lookup finds a block unknown that an earlier one did. -/
theorem run_sighted_nodup {checkpoints : List (Checkpoint H)}
    (distinct : (checkpoints.map Checkpoint.height).Nodup) (batches : List (List (Header H)))
    {steps : List (HeaderTree.SightingStep H)}
    (settled : Run.Along (HeaderTree.Sightings.step net) HeaderTree.Sightings.Settled
      (.start (HeaderTree.run net checkpoints batches)) steps)
    (few : HeaderTree.refusals net (HeaderTree.offers net checkpoints
      (batches ++ HeaderTree.insertions steps)) ≤ REJECTED_REMEMBERED) :
    (Run.runFrom (HeaderTree.Sightings.step net)
      (.start (HeaderTree.run net checkpoints batches)) steps).sighted.Nodup := by
  have begun : (HeaderTree.Sightings.start (HeaderTree.run net checkpoints batches)).Sound net
      (HeaderTree.offers net checkpoints batches) := by
    obtain ⟨represents, remembers⟩ := run_remembered net distinct batches
    exact ⟨represents, remembers, nofun, fun _ => List.nodup_nil⟩
  have sound := begun.runFrom settled
  rw [HeaderTree.offers_append] at few
  exact sound.once few

end P2PObserver
