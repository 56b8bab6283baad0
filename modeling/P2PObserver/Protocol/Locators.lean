import P2PObserver.HeaderTree.Invariant
import P2PObserver.HeaderTree.Locator
import P2PObserver.Protocol.Session

/-! # Locators and their answers

A locator lists best-chain hashes from the tip down to genesis; an answer is the run of the
best chain after the first of them it finds there. Genesis is on every best chain, so between
two trees an answer always links up with what the other has.
-/

namespace P2PObserver

/-- The heights `build_locator` visits. -/
def locatorHeights : Nat → Nat → Nat → List Nat
  | 0, _, _ => []
  | fuel + 1, height, step =>
      height :: if height = 0 then []
        else locatorHeights fuel (height - step) (if step < 16 then step + 1 else step * 2)

/-! ## The heights -/

theorem next_step_pos {step : Nat} (pos : 0 < step) :
    0 < if step < 16 then step + 1 else step * 2 := by
  split <;> omega

/-- They come down from the first to zero. -/
theorem locatorHeights_spec (fuel : Nat) : ∀ {height step : Nat}, height < fuel → 0 < step →
    (locatorHeights fuel height step).Pairwise (· > ·) ∧
      (∀ h ∈ locatorHeights fuel height step, h ≤ height) ∧
      (locatorHeights fuel height step).getLast? = some 0 := by
  induction fuel with
  | zero => exact fun enough => absurd enough (Nat.not_lt_zero _)
  | succ fuel ih =>
      intro height step enough pos
      unfold locatorHeights
      split
      · rename_i bottom
        subst bottom
        exact ⟨List.pairwise_singleton .., by simp, rfl⟩
      · have next := ih (show height - step < fuel by omega) (next_step_pos pos)
        obtain ⟨sorted, below, last⟩ := next
        refine ⟨List.pairwise_cons.mpr ⟨?_, sorted⟩, ?_, ?_⟩
        · intro h listed
          have := below h listed
          omega
        · intro h listed
          cases listed with
          | head => exact Nat.le_refl height
          | tail _ later =>
              have := below h later
              omega
        · rw [List.getLast?_cons, last]
          rfl

/-- Once the step doubles, the number of heights is logarithmic. -/
theorem locatorHeights_doubling (n : Nat) : ∀ {fuel height step : Nat}, 16 ≤ step →
    height ≤ step * (2 ^ n - 1) → (locatorHeights fuel height step).length ≤ n + 1 := by
  induction n with
  | zero =>
      intro fuel height step _ low
      obtain rfl : height = 0 := by simpa using low
      cases fuel <;> simp [locatorHeights]
  | succ n ih =>
      intro fuel height step wide low
      cases fuel with
      | zero => simp [locatorHeights]
      | succ fuel =>
          unfold locatorHeights
          split
          · simp
          · rw [if_neg (by omega), List.length_cons]
            have power : step * (2 ^ (n + 1) - 1) = step + step * 2 * (2 ^ n - 1) := by
              have := Nat.one_le_two_pow (n := n)
              obtain ⟨m, grown⟩ : ∃ m, 2 ^ n = m + 1 := ⟨2 ^ n - 1, by omega⟩
              rw [Nat.pow_succ, grown, show (m + 1) * 2 - 1 = 2 * m + 1 by omega,
                Nat.add_sub_cancel, Nat.mul_add, Nat.mul_one, Nat.add_comm, Nat.mul_assoc]
            exact Nat.succ_le_succ (ih (by omega) (by omega))

/-- A height that fits in 32 bits takes at most 45 heights to come down from. -/
theorem locatorHeights_short (n : Nat) : ∀ {fuel height : Nat}, n ≤ 15 → height < 2 ^ 32 →
    (locatorHeights fuel height (16 - n)).length ≤ n + 30 := by
  induction n with
  | zero => exact fun _ small => locatorHeights_doubling 29 (by omega) (by omega)
  | succ n ih =>
      intro fuel height le small
      cases fuel with
      | zero => simp [locatorHeights]
      | succ fuel =>
          unfold locatorHeights
          split
          · simp
          · rw [if_pos (by omega), List.length_cons, show 16 - (n + 1) + 1 = 16 - n by omega]
            have rest : (locatorHeights fuel (height - (16 - (n + 1))) (16 - n)).length ≤ n + 30 :=
              ih (by omega) (by omega)
            omega

namespace HeaderTree

variable {H : Type}

theorem locatorFrom_eq (bestChain : List H) (fuel : Nat) : ∀ height step : Nat,
    locatorFrom bestChain fuel height step =
      (locatorHeights fuel height step).filterMap (bestChain[·]?) := by
  induction fuel with
  | zero => exact fun height step => rfl
  | succ fuel ih =>
      intro height step
      unfold locatorFrom locatorHeights
      rw [List.filterMap_cons]
      cases bestChain[height]? <;> split <;> simp [ih]

variable [LinearOrder H]

/-- What a locator of the tree is. -/
structure LocatorExact (net : Network H) (t : HeaderTree H) : Prop where
  heights : ∃ heights : List Nat, heights.Pairwise (· > ·) ∧
    List.Forall₂ (fun height hash => t.bestChain[height]? = some hash) heights t.buildLocator
  first : t.buildLocator.head? = some t.tip
  last : t.buildLocator.getLast? = some net.genesisHash
  short : t.tipHeight < 2 ^ 32 → t.buildLocator.length ≤ MAX_LOCATOR_SZ

/-- Where an answer begins: after the first locator hash on the best chain, or after genesis. -/
def StartsAt (t : HeaderTree H) (locator : List H) (start : Nat) : Prop :=
  (∃ before hash after height, locator = before ++ hash :: after ∧
      (∀ other ∈ before, other ∉ t.bestChain) ∧ t.bestChain[height]? = some hash ∧
      start = height + 1) ∨
    (∀ hash ∈ locator, hash ∉ t.bestChain) ∧ start = 1

/-- A list up to and with the first occurrence of an element, or else the whole of it. -/
def upTo (stop : H) (hashes : List H) : List H :=
  hashes.takeWhile (· ≠ stop) ++ if hashes.contains stop then [stop] else []

theorem upTo_cons (stop hash : H) (hashes : List H) :
    upTo stop (hash :: hashes) = hash :: if hash = stop then [] else upTo stop hashes := by
  unfold upTo
  by_cases same : hash = stop
  · subst same
    simp
  · simp [same, Ne.symm same]

/-- What an answer to a locator is. -/
def AnswerExact (net : Network H) (t : HeaderTree H) (locator : List H) (stop : H) : Prop :=
  ∃ start, t.StartsAt locator start ∧ start ≤ t.bestChain.length ∧
    (t.getHeadersFromLocator net locator stop).map net.blockHash =
      (if stop = net.zeroHash then (t.bestChain.drop start).take MAX_HEADERS_RESULTS
        else upTo stop ((t.bestChain.drop start).take MAX_HEADERS_RESULTS))

end HeaderTree

namespace Invariant

variable {H : Type} [LinearOrder H] {net : Network H} {t : HeaderTree H}

/-- The tree holds what its best chain lists. -/
theorem chain_entry (I : Invariant net t) {height : Nat} {hash : H}
    (here : t.bestChain[height]? = some hash) :
    ∃ entry, t.headers.lookup hash = some entry ∧ entry.height = height ∧
      net.blockHash entry.header = hash := by
  obtain ⟨entry, found, level⟩ := Option.map_eq_some_iff.mp (I.chain_height height hash here)
  exact ⟨entry, found, level, I.keyed hash entry found⟩

theorem buildLocator_eq (I : Invariant net t) : t.buildLocator =
    (locatorHeights (t.tipHeight + 1) t.tipHeight 1).filterMap (t.bestChain[·]?) := by
  obtain ⟨-, -, last⟩ := locatorHeights_spec (t.tipHeight + 1) (Nat.lt_succ_self t.tipHeight)
    Nat.one_pos
  have bottom : t.bestChain[0]? = some net.genesisHash := by
    rw [← List.head?_eq_getElem?, I.chain_first]
  unfold HeaderTree.buildLocator
  rw [HeaderTree.locatorFrom_eq]
  obtain ⟨init, heights⟩ := List.getLast?_eq_some_iff.mp last
  have ends : ((locatorHeights (t.tipHeight + 1) t.tipHeight 1).filterMap
      (t.bestChain[·]?)).getLast? = t.bestChain.head? := by
    rw [heights, List.filterMap_append, I.chain_first]
    simp [bottom]
  dsimp only
  rw [if_pos ends]

theorem locatorExact (I : Invariant net t) : t.LocatorExact net := by
  obtain ⟨sorted, below, last⟩ := locatorHeights_spec (t.tipHeight + 1)
    (Nat.lt_succ_self t.tipHeight) Nat.one_pos
  have eq := I.buildLocator_eq
  have inside : ∀ heights : List Nat, (∀ h ∈ heights, h ≤ t.tipHeight) →
      List.Forall₂ (fun height hash => t.bestChain[height]? = some hash) heights
        (heights.filterMap (t.bestChain[·]?)) := by
    intro heights low
    induction heights with
    | nil => exact .nil
    | cons height heights ih =>
        have room : height < t.bestChain.length := by
          have := low height List.mem_cons_self
          rw [I.chain_length]
          omega
        have here := List.getElem?_eq_getElem room
        rw [List.filterMap_cons, here]
        exact .cons here (ih fun h listed => low h (List.mem_cons_of_mem height listed))
  have listed := inside _ below
  rw [← eq] at listed
  constructor
  case heights => exact ⟨_, sorted, listed⟩
  case first =>
    have tip := I.chain_last
    rw [List.getLast?_eq_getElem?, I.chain_length, Nat.add_sub_cancel] at tip
    rw [eq]
    unfold locatorHeights
    rw [List.filterMap_cons, tip]
    rfl
  case last =>
    obtain ⟨init, heights⟩ := List.getLast?_eq_some_iff.mp last
    rw [eq, heights, List.filterMap_append, ← I.chain_first, List.head?_eq_getElem?]
    have bottom : t.bestChain[0]? = some net.genesisHash := by
      rw [← List.head?_eq_getElem?, I.chain_first]
    simp [bottom]
  case short =>
    intro small
    have few : (locatorHeights (t.tipHeight + 1) t.tipHeight 1).length ≤ 45 :=
      locatorHeights_short 15 (Nat.le_refl 15) small
    rw [← listed.length_eq]
    exact few.trans (by decide)

/-! ## Answers -/

theorem onBestChain_eq (I : Invariant net t) {hash : H} {height : Nat} :
    t.onBestChain hash = some height ↔ t.bestChain[height]? = some hash := by
  unfold HeaderTree.onBestChain
  constructor
  · intro on
    split at on
    · cases on
    · split at on
      · rename_i here
        cases on
        exact here
      · cases on
  · intro here
    obtain ⟨entry, found, rfl, -⟩ := I.chain_entry here
    rw [found]
    exact if_pos here

theorem onBestChain_none (I : Invariant net t) {hash : H} :
    t.onBestChain hash = none ↔ hash ∉ t.bestChain := by
  constructor
  · intro off member
    obtain ⟨height, here⟩ := List.mem_iff_getElem?.mp member
    rw [I.onBestChain_eq.mpr here] at off
    cases off
  · intro off
    by_contra on
    obtain ⟨height, on⟩ := Option.ne_none_iff_exists'.mp on
    exact off (List.mem_of_getElem? (I.onBestChain_eq.mp on))

/-- The search for the first hash on the best chain. -/
theorem startsAt (I : Invariant net t) (locator : List H) :
    t.StartsAt locator
      ((locator.findSome? fun hash => (t.onBestChain hash).map (· + 1)).getD 1) := by
  induction locator with
  | nil => exact .inr ⟨fun _ listed => absurd listed List.not_mem_nil, rfl⟩
  | cons hash locator ih =>
      rw [List.findSome?_cons]
      cases on : t.onBestChain hash with
      | some height =>
          exact .inl ⟨[], hash, locator, height, rfl, by simp, I.onBestChain_eq.mp on, rfl⟩
      | none =>
          have off := I.onBestChain_none.mp on
          rw [Option.map_none]
          rcases ih with ⟨before, found, after, height, rfl, off_before, here, start⟩ | ⟨off_before, start⟩
          · left
            refine ⟨hash :: before, found, after, height, rfl, ?_, here, start⟩
            exact List.forall_mem_cons.mpr ⟨off, off_before⟩
          · exact .inr ⟨List.forall_mem_cons.mpr ⟨off, off_before⟩, start⟩

theorem StartsAt_le (I : Invariant net t) {locator : List H} {start : Nat}
    (starts : t.StartsAt locator start) : start ≤ t.bestChain.length := by
  rcases starts with ⟨before, hash, after, height, -, -, here, rfl⟩ | ⟨-, rfl⟩
  · exact (List.getElem?_eq_some_iff.mp here).1
  · rw [I.chain_length]
    omega

/-- The headers of a stretch of the best chain, to the stop hash. -/
theorem headersThrough_eq (I : Invariant net t) (stop : H) {hashes : List H}
    (on : ∀ hash ∈ hashes, hash ∈ t.bestChain) :
    (t.headersThrough net stop hashes).map net.blockHash =
      if stop = net.zeroHash then hashes else HeaderTree.upTo stop hashes := by
  induction hashes with
  | nil =>
      unfold HeaderTree.headersThrough HeaderTree.upTo
      split <;> rfl
  | cons hash hashes ih =>
      obtain ⟨here, on⟩ := List.forall_mem_cons.mp on
      obtain ⟨height, here⟩ := List.mem_iff_getElem?.mp here
      obtain ⟨entry, found, -, key⟩ := I.chain_entry here
      have rest := ih on
      unfold HeaderTree.headersThrough
      rw [found]
      by_cases zero : stop = net.zeroHash
      · rw [if_pos zero] at rest ⊢
        rw [if_neg fun both => both.1 zero, List.map_cons, key, rest]
      · rw [if_neg zero] at rest ⊢
        rw [HeaderTree.upTo_cons]
        by_cases same : hash = stop
        · rw [if_pos same, if_pos ⟨zero, same⟩, List.map_cons, key]
          rfl
        · rw [if_neg same, if_neg fun both => same both.2, List.map_cons, key, rest]

theorem answerExact (I : Invariant net t) (locator : List H) (stop : H) :
    t.AnswerExact net locator stop := by
  have starts := I.startsAt locator
  refine ⟨_, starts, I.StartsAt_le starts, ?_⟩
  unfold HeaderTree.getHeadersFromLocator
  apply I.headersThrough_eq
  intro hash listed
  exact List.mem_of_mem_drop (List.mem_of_mem_take listed)

/-- A locator lists hashes of the best chain. -/
theorem mem_of_mem_buildLocator (I : Invariant net t) {hash : H} (listed : hash ∈ t.buildLocator) :
    hash ∈ t.bestChain := by
  rw [I.buildLocator_eq] at listed
  obtain ⟨level, -, at_level⟩ := List.mem_filterMap.mp listed
  exact List.mem_of_getElem? at_level

/-- Genesis is in every locator, so an answer begins after a block both trees have. -/
theorem starts_on {a b : HeaderTree H} (A : Invariant net a) (B : Invariant net b) {start : Nat}
    (starts : b.StartsAt a.buildLocator start) :
    ∃ hash height, hash ∈ a.bestChain ∧ b.bestChain[height]? = some hash ∧ start = height + 1 := by
  rcases starts with ⟨before, hash, after, height, listed, -, here, rfl⟩ | ⟨off_all, -⟩
  · refine ⟨hash, height, A.mem_of_mem_buildLocator ?_, here, rfl⟩
    rw [listed]
    simp
  · have bottom : net.genesisHash ∈ b.bestChain := List.mem_of_mem_head? B.chain_first
    exact absurd bottom (off_all _ (List.mem_of_getLast? A.locatorExact.last))

/-- What another tree answers to a locator builds on the tree's own best chain. -/
theorem answer_links {a b : HeaderTree H} (A : Invariant net a) (B : Invariant net b) {stop : H}
    {header : Header H} {rest : List (Header H)}
    (answer : b.getHeadersFromLocator net a.buildLocator stop = header :: rest) :
    header.prevBlockhash ∈ a.bestChain := by
  obtain ⟨start, starts, -, eq⟩ := B.answerExact a.buildLocator stop
  have first : b.bestChain[start]? = some (net.blockHash header) := by
    rw [answer, List.map_cons] at eq
    rw [← List.head?_drop]
    cases run : b.bestChain.drop start with
    | nil =>
        rw [run] at eq
        split at eq <;> cases eq
    | cons hash hashes =>
        rw [run, MAX_HEADERS_RESULTS, List.take_succ_cons] at eq
        split at eq
        · rw [(List.cons.inj eq).1]
          rfl
        · rw [HeaderTree.upTo_cons] at eq
          rw [(List.cons.inj eq).1]
          rfl
  obtain ⟨hash, height, own, here, rfl⟩ := A.starts_on B starts
  obtain ⟨entry, found, link⟩ := B.chain_link height hash _ here first
  rw [← net.blockHash_injective (B.keyed _ entry found), link]
  exact own

end Invariant

/-- In every tree a run reaches, locators come down from the tip to genesis and answers are runs
    of the best chain; what one tree answers to another's locator links up with that tree. -/
theorem run_locators {H : Type} [LinearOrder H] (net : Network H)
    (checkpoints checkpoints' : List (Checkpoint H))
    (distinct : (checkpoints.map Checkpoint.height).Nodup)
    (distinct' : (checkpoints'.map Checkpoint.height).Nodup)
    (batches batches' : List (List (Header H))) :
    (HeaderTree.run net checkpoints batches).LocatorExact net ∧
      (∀ locator stop, (HeaderTree.run net checkpoints batches).AnswerExact net locator stop) ∧
      ∀ stop header rest,
        (HeaderTree.run net checkpoints' batches').getHeadersFromLocator net
            (HeaderTree.run net checkpoints batches).buildLocator stop = header :: rest →
          header.prevBlockhash ∈ (HeaderTree.run net checkpoints batches).bestChain := by
  have own := run_invariant net checkpoints distinct batches
  have other := run_invariant net checkpoints' distinct' batches'
  exact ⟨own.locatorExact, own.answerExact, fun _ _ _ answer => own.answer_links other answer⟩

/-- Two trees on mainnet, one with a block at height 1 the other lacks. -/
theorem run_locators_mainnet :
    let net := Params.mainnet.network
    let block := Params.mine net.genesis 2 1231006700 0x1d00ffff
    let own := HeaderTree.run net [] [[Params.mine net.genesis 1 1231006600 0x1d00ffff]]
    own.LocatorExact net ∧ (∀ locator stop, own.AnswerExact net locator stop) ∧
      ∀ stop header rest,
        (HeaderTree.run net [⟨1, net.blockHash block⟩] [[block]]).getHeadersFromLocator net
            own.buildLocator stop = header :: rest → header.prevBlockhash ∈ own.bestChain := by
  intro net block own
  apply run_locators
  · decide
  · decide

end P2PObserver
