import P2PObserver.HeaderTree.Frame
import P2PObserver.HeaderTree.Represents

/-! # The tree refines its set of branches

`Represents` says which branches a tree holds and where its tip stands among them.
Validation is evaluated against the branch it extends, `InsertOutcome` lists everything
one insertion can do, and accepting a header is `growWith` on the branches.
-/

namespace P2PObserver

variable {H : Type} [LinearOrder H] {net : Network H}

/-- The branch ends at the tree's tip. -/
def AtTip (net : Network H) (t : HeaderTree H) (branch : List (Header H)) : Prop :=
  ∃ n rest, branch = n :: rest ∧ net.blockHash n = t.tip ∧ rest.length = t.tipHeight ∧
    net.chainWork branch = t.tipWork

omit [LinearOrder H] in
theorem AtTip.unique {t t' : HeaderTree H} {b c : List (Header H)} (hb : AtTip net t b)
    (hc : AtTip net t' c) (branch : net.IsBranch b) (branch' : net.IsBranch c)
    (same : t.tip = t'.tip) : b = c := by
  obtain ⟨n, rest, rfl, key, -⟩ := hb
  obtain ⟨m, below, rfl, key', -⟩ := hc
  exact branch.unique_of_key branch' (key.trans (same.trans key'.symm))

/-- `bestChain` lists the branch, oldest first. -/
def BestChainIs (net : Network H) (t : HeaderTree H) (branch : List (Header H)) : Prop :=
  t.bestChain = (branch.map net.blockHash).reverse

/-- The tree holds exactly the branches of `held`: those comparable with the
    checkpoint it has reached, and its tip is one of the heaviest. -/
structure Represents (net : Network H) (t : HeaderTree H) (held : Set (List (Header H))) : Prop
    extends MapOf net t.checkpoints t.headers held where
  heights_nodup : (t.checkpoints.map Checkpoint.height).Nodup
  unreached : t.reachedCheckpoint = none → ∀ b ∈ held, ¬ IsCheckpoint net t.checkpoints b
  reached : ∀ r, t.reachedCheckpoint = some r → ∃ c ∈ held,
    IsCheckpoint net t.checkpoints c ∧ c.length = r + 1 ∧
      (∀ b ∈ held, Lineage.Comparable b c) ∧
      ∀ b ∈ held, IsCheckpoint net t.checkpoints b → b.length ≤ c.length
  tip : ∃ b ∈ held, AtTip net t b
  heaviest : ∀ b ∈ held, net.chainWork b ≤ t.tipWork

/-! ## Validation -/

/-- What `validate_header` says of a header on top of `below`. -/
def Network.verdict (net : Network H) (checkpoints : List (Checkpoint H)) (reached : Option Nat)
    (header : Header H) (below : List (Header H)) : Except HeaderError Unit :=
  if net.maxAttainableTarget < net.target header.bits then .error .targetTooEasy
  else if (checkpoints.find? (fun c => c.height == below.length)).any
      (fun c => c.hash != net.blockHash header) then .error .checkpointMismatch
  else if reached.any (fun reached => below.length ≤ reached) then .error .forkBelowCheckpoint
  else if net.validatePow header (net.target (net.expectedBits below)) then .ok ()
  else .error .invalidPow

omit [LinearOrder H] in
/-- With distinct heights, looking a checkpoint up by height finds the one listed. -/
theorem find_checkpoint_iff {checkpoints : List (Checkpoint H)}
    (distinct : (checkpoints.map Checkpoint.height).Nodup) {height : Nat} {c : Checkpoint H} :
    checkpoints.find? (fun c => c.height == height) = some c ↔
      c ∈ checkpoints ∧ c.height = height := by
  induction checkpoints with
  | nil => simp
  | cons d rest ih =>
      simp only [List.map_cons, List.nodup_cons, List.mem_map, not_exists, not_and] at distinct
      by_cases here : d.height = height
      · have off : ∀ c ∈ rest, c.height ≠ height :=
          fun c member same => distinct.1 c member (same.trans here.symm)
        simp only [List.find?_cons, here, beq_self_eq_true, Option.some.injEq, List.mem_cons]
        constructor
        · rintro rfl
          exact ⟨.inl rfl, here⟩
        · rintro ⟨rfl | member, same⟩
          · rfl
          · exact absurd same (off c member)
      · have ne : (d.height == height) = false := by simpa using here
        simp only [List.find?_cons, ne, ih distinct.2, List.mem_cons]
        constructor
        · rintro ⟨member, same⟩
          exact ⟨.inr member, same⟩
        · rintro ⟨rfl | member, same⟩
          · exact absurd same here
          · exact ⟨member, same⟩

/-- Validation accepts exactly the sound headers above the reached checkpoint. -/
theorem Network.verdict_ok_iff {checkpoints : List (Checkpoint H)}
    (distinct : (checkpoints.map Checkpoint.height).Nodup) {reached : Option Nat}
    {header : Header H} {below : List (Header H)} :
    net.verdict checkpoints reached header below = .ok () ↔
      Sound net checkpoints header below ∧ ∀ r, reached = some r → r < below.length := by
  have mismatch : (checkpoints.find? (fun c => c.height == below.length)).any
      (fun c => c.hash != net.blockHash header) = false ↔
        ∀ c ∈ checkpoints, c.height = below.length → c.hash = net.blockHash header := by
    simp only [Option.any_eq_false, bne_eq_false_iff_eq, find_checkpoint_iff distinct]
    constructor
    · intro all c listed height
      exact all c ⟨listed, height⟩
    · intro all c found
      exact all c found.1 found.2
  have fork : reached.any (fun reached => decide (below.length ≤ reached)) = false ↔
      ∀ r, reached = some r → r < below.length := by
    simp [Option.any_eq_false]
  unfold Network.verdict
  constructor
  · intro accepted
    split at accepted
    · cases accepted
    rename_i easy
    split at accepted
    · cases accepted
    rename_i listed
    split at accepted
    · cases accepted
    rename_i above
    split at accepted
    · rename_i pow
      rw [Bool.not_eq_true] at listed above
      exact ⟨⟨Nat.le_of_not_lt easy, mismatch.mp listed, pow⟩, fork.mp above⟩
    · cases accepted
  · rintro ⟨ok, above⟩
    rw [if_neg (Nat.not_lt.mpr ok.target_le), mismatch.mpr ok.checkpoint, fork.mpr above, ok.pow]
    simp

/-- Whatever validation refuses, it places: an orphan or a weaker chain is never
    its answer. -/
theorem Network.verdict_error {checkpoints : List (Checkpoint H)} {reached : Option Nat}
    {header : Header H} {below : List (Header H)} {reason : HeaderError}
    (refused : net.verdict checkpoints reached header below = .error reason) :
    reason ≠ .orphanHeader ∧ reason ≠ .weakerChain := by
  unfold Network.verdict at refused
  split at refused
  · cases refused; simp
  · split at refused
    · cases refused; simp
    · split at refused
      · cases refused; simp
      · split at refused
        · cases refused
        · cases refused; simp

/-- The bits `validate_header` expects are those of the branch it extends. -/
theorem MapOf.expectedBitsAt_eq {t : HeaderTree H} {held : Set (List (Header H))}
    (M : MapOf net t.checkpoints t.headers held) {header p : Header H} {rest : List (Header H)}
    (hb : p :: rest ∈ held) (link : header.prevBlockhash = net.blockHash p) :
    t.expectedBitsAt net header (rest.length + 1) (entryOf net p rest) =
      some (net.expectedBits (p :: rest)) := by
  simp only [HeaderTree.expectedBitsAt, Nat.succ_pos, and_true]
  by_cases opens : (rest.length + 1) % PERIOD = 0
  · have long : PERIOD - 1 < (p :: rest).length := by
      have := Nat.le_of_dvd (Nat.succ_pos _) (Nat.dvd_of_mod_eq_zero opens)
      simp only [PERIOD, List.length_cons] at this ⊢
      omega
    have first := List.getElem?_eq_getElem long
    rw [if_pos opens, link, M.walkBack_eq hb first, net.expectedBits_retarget opens first]
    rfl
  · rw [if_neg opens, net.expectedBits_inside opens]
    rfl

theorem MapOf.validateHeader_eq {t : HeaderTree H} {held : Set (List (Header H))}
    (M : MapOf net t.checkpoints t.headers held) {header p : Header H} {rest : List (Header H)}
    (hb : p :: rest ∈ held) (link : header.prevBlockhash = net.blockHash p) :
    t.validateHeader net header (rest.length + 1) (entryOf net p rest) =
      net.verdict t.checkpoints t.reachedCheckpoint header (p :: rest) := by
  simp only [HeaderTree.validateHeader, M.expectedBitsAt_eq hb link, Network.verdict,
    List.length_cons]

/-! ## One insertion -/

/-- A header the tree may take: new, on top of a branch it holds, sound and above
    the reached checkpoint. -/
structure Placeable (net : Network H) (t : HeaderTree H) (held : Set (List (Header H)))
    (header p : Header H) (rest : List (Header H)) : Prop where
  fresh : ∀ below, header :: below ∉ held
  parent : p :: rest ∈ held
  link : header.prevBlockhash = net.blockHash p
  off : header ≠ net.genesis
  sound : Sound net t.checkpoints header (p :: rest)
  above : ∀ r, t.reachedCheckpoint = some r → r < (p :: rest).length

/-- Everything one insertion can do to a tree holding `held`. -/
inductive InsertOutcome (net : Network H) (t : HeaderTree H) (held : Set (List (Header H)))
    (header : Header H) : HeaderTree H → Except HeaderError Bool → Prop
  | known {below : List (Header H)} : header :: below ∈ held →
      InsertOutcome net t held header t (.ok false)
  | unplaced : (∀ below, header :: below ∉ held) →
      (∀ p rest, p :: rest ∈ held → net.blockHash p ≠ header.prevBlockhash) →
      InsertOutcome net t held header (t.refuseUnplaced net header).1
        (.error (t.refuseUnplaced net header).2)
  | refused {p : Header H} {rest : List (Header H)} {reason : HeaderError} :
      (∀ below, header :: below ∉ held) → p :: rest ∈ held →
      header.prevBlockhash = net.blockHash p →
      net.verdict t.checkpoints t.reachedCheckpoint header (p :: rest) = .error reason →
      InsertOutcome net t held header (t.rememberRejected (net.blockHash header) reason)
        (.error reason)
  | accepted {p : Header H} {rest : List (Header H)} : Placeable net t held header p rest →
      InsertOutcome net t held header (t.accept net header (entryOf net p rest)) (.ok true)

namespace Represents

variable {t : HeaderTree H} {held : Set (List (Header H))}

theorem insertInner_outcome (R : Represents net t held) (header : Header H) :
    InsertOutcome net t held header (t.insertInner net header).1 (t.insertInner net header).2 := by
  simp only [HeaderTree.insertInner]
  by_cases known : net.blockHash header ∈ t.headers
  · obtain ⟨n, below, hb, key⟩ := R.toMapOf.mem_iff.mp known
    obtain rfl := net.blockHash_injective key
    rw [if_pos known]
    exact .known hb
  · have fresh : ∀ below, header :: below ∉ held :=
      fun below hb => known (R.toMapOf.mem_iff.mpr ⟨header, below, hb, rfl⟩)
    have off : header ≠ net.genesis := by
      rintro rfl
      exact fresh [] R.root_mem
    rw [if_neg known]
    cases found : t.headers.lookup header.prevBlockhash with
    | none =>
        exact .unplaced fresh fun p rest hb => R.toMapOf.lookup_none found hb
    | some parent =>
        obtain ⟨p, rest, hb, key, rfl⟩ := R.lookup_iff.mp found
        have verdict := R.toMapOf.validateHeader_eq hb key.symm
        have height : (entryOf net p rest).height + 1 = rest.length + 1 := rfl
        simp only [height, verdict]
        cases said : net.verdict t.checkpoints t.reachedCheckpoint header (p :: rest) with
        | error reason => exact .refused fresh hb key.symm said
        | ok _ =>
            obtain ⟨ok, above⟩ := (net.verdict_ok_iff R.heights_nodup).mp said
            exact .accepted ⟨fresh, hb, key.symm, off, ok, above⟩

/-- On top of a held branch, the tree would accept the sound headers above the reached
    checkpoint. -/
theorem accepts_iff (R : Represents net t held) {header p : Header H} {rest : List (Header H)}
    (parent : p :: rest ∈ held) (link : header.prevBlockhash = net.blockHash p) :
    t.accepts net header = true ↔ Sound net t.checkpoints header (p :: rest) ∧
      ∀ r, t.reachedCheckpoint = some r → r < (p :: rest).length := by
  have found := R.toMapOf.lookup parent
  have verdict : t.validateHeader net header ((entryOf net p rest).height + 1)
      (entryOf net p rest) = net.verdict t.checkpoints t.reachedCheckpoint header (p :: rest) :=
    R.toMapOf.validateHeader_eq parent link
  rw [← link] at found
  rw [← net.verdict_ok_iff R.heights_nodup, HeaderTree.accepts, found]
  simp only [verdict]
  cases net.verdict t.checkpoints t.reachedCheckpoint header (p :: rest) with
  | error reason => simp [Except.toBool]
  | ok _ => simp [Except.toBool]

/-- The tip's branch is the one branch held under the tip's hash. -/
theorem atTip_iff (R : Represents net t held) {n : Header H} {rest : List (Header H)}
    (hb : n :: rest ∈ held) : AtTip net t (n :: rest) ↔ net.blockHash n = t.tip := by
  constructor
  · rintro ⟨m, below, eq, key, -, -⟩
    obtain ⟨rfl, rfl⟩ := List.cons.inj eq
    exact key
  · intro key
    obtain ⟨b, hb', m, below, rfl, key', rest'⟩ := R.tip
    rw [R.toMapOf.eq_of_hash hb (R.toMapOf.branch hb') (key.trans key'.symm)]
    exact ⟨m, below, rfl, key', rest'⟩

/-- Everything held is comparable with every checkpoint block held. -/
theorem comparable_checkpoint (R : Represents net t held) {b c : List (Header H)} (hb : b ∈ held)
    (hc : c ∈ held) (isCheckpoint : IsCheckpoint net t.checkpoints c) :
    Lineage.Comparable b c := by
  cases reached : t.reachedCheckpoint with
  | none => exact absurd isCheckpoint (R.unreached reached c hc)
  | some r =>
      obtain ⟨top, -, -, -, comparable, highest⟩ := R.reached r reached
      have below := (comparable c hc).suffix_of_length_le (highest c hc isCheckpoint)
      cases comparable b hb with
      | inl under => exact .of_suffix under below
      | inr above => exact .inr (below.trans above)

/-- What represents a tree represents any tree with the same chain. -/
theorem of_sameChain {t' : HeaderTree H} (R : Represents net t held)
    (same : HeaderTree.SameChain t t') : Represents net t' held where
  toMapOf := by
    rw [same.checkpoints, same.headers]
    exact R.toMapOf
  heights_nodup := by
    rw [same.checkpoints]
    exact R.heights_nodup
  unreached := by
    rw [same.checkpoints, same.reachedCheckpoint]
    exact R.unreached
  reached := by
    rw [same.checkpoints, same.reachedCheckpoint]
    exact R.reached
  tip := by
    simp only [AtTip, same.tip, same.tipHeight, same.tipWork]
    exact R.tip
  heaviest := by
    rw [same.tipWork]
    exact R.heaviest

end Represents

end P2PObserver
