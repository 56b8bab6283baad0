import P2PObserver.HeaderTree.Mined

/-! # The proof-of-work rule of each network

What consensus requires of a header's bits, next to what `validate_header` asks for.
They are the same rule at the start of a period and on every network without the
minimum-difficulty exception; with it, they part inside a period.
-/

namespace P2PObserver

variable {H : Type} {net : Network H}

/-- Twenty minutes, in the seconds of block times. -/
def MIN_DIFFICULTY_SPACING : Nat := 20 * 60

/-- The bits of the newest block down the branch that is not a minimum-difficulty
    exception: it opens a period or its bits are not the limit. -/
def lastPeriodBits (limit : Nat) : List (Header H) → Nat
  | [] => limit
  | n :: rest =>
      if rest ≠ [] ∧ rest.length % PERIOD ≠ 0 ∧ n.bits = limit then lastPeriodBits limit rest
      else n.bits

/-- The bits the network's consensus rules require of a header on top of `below`;
    `limit` is the network's minimum difficulty. -/
def Network.requiredBits (net : Network H) (limit : Nat) (header : Header H)
    (below : List (Header H)) : Nat :=
  if below.length % PERIOD = 0 ∨ net.allowMinDifficultyBlocks = false then net.expectedBits below
  else
    match below with
    | [] => limit
    | parent :: _ =>
        if parent.time + MIN_DIFFICULTY_SPACING < header.time then limit
        else lastPeriodBits limit below

/-- The header's hash meets its own bits, and these are in the network's range. -/
def Network.meetsOwnTarget (net : Network H) (header : Header H) : Prop :=
  net.target header.bits ≤ net.maxAttainableTarget ∧
    net.validatePow header (net.target header.bits) = true

instance (net : Network H) (header : Header H) : Decidable (net.meetsOwnTarget header) :=
  inferInstanceAs (Decidable (_ ∧ _))

/-- The proof-of-work part of validation: the bits the code expects, and a hash that
    meets them. -/
theorem Network.pow_iff (pow_bits : ∀ header bits,
      net.validatePow header (net.target bits) = true → header.bits = bits)
    {header : Header H} {expected : Nat} :
    net.target header.bits ≤ net.maxAttainableTarget ∧
        net.validatePow header (net.target expected) = true ↔
      header.bits = expected ∧ net.meetsOwnTarget header := by
  constructor
  · intro ⟨easy, pow⟩
    have same := pow_bits header expected pow
    rw [← same] at pow
    exact ⟨same, easy, pow⟩
  · intro ⟨same, easy, pow⟩
    rw [same] at pow
    exact ⟨easy, pow⟩

/-- The tree accepts the header exactly when the network's rules on its bits do. -/
def HeaderTree.AgreesOnWork [LinearOrder H] (net : Network H) (t : HeaderTree H) (limit : Nat)
    (header : Header H) (below : List (Header H)) : Prop :=
  t.accepts net header = true ↔
    header.bits = net.requiredBits limit header below ∧ net.meetsOwnTarget header

/-- The minimum-difficulty exception makes no difference to the header: it opens a
    period, or the network has no exception, or the required bits are the parent's
    anyway, or the header has neither. -/
def Network.NoException (net : Network H) (limit : Nat) (header parent : Header H)
    (rest : List (Header H)) : Prop :=
  (parent :: rest).length % PERIOD = 0 ∨ net.allowMinDifficultyBlocks = false ∨
    net.requiredBits limit header (parent :: rest) = parent.bits ∨
    header.bits ≠ net.requiredBits limit header (parent :: rest) ∧ header.bits ≠ parent.bits

/-- Where the code's expected bits are the required ones. -/
theorem Network.requiredBits_eq {limit : Nat} {header parent : Header H} {rest : List (Header H)} :
    ((header.bits = net.expectedBits (parent :: rest) ↔
        header.bits = net.requiredBits limit header (parent :: rest)) ↔
      net.NoException limit header parent rest) := by
  unfold NoException
  by_cases plain : (parent :: rest).length % PERIOD = 0 ∨ net.allowMinDifficultyBlocks = false
  · have same : net.requiredBits limit header (parent :: rest) =
        net.expectedBits (parent :: rest) := if_pos plain
    rw [same]
    tauto
  · rw [not_or] at plain
    rw [net.expectedBits_inside plain.1]
    generalize net.requiredBits limit header (parent :: rest) = required
    grind

/-- In every tree a run reaches, the code's rule is the network's for a header on top of
    what is held, unless the minimum-difficulty exception applies to it. -/
theorem accepts_required_iff [LinearOrder H] (net : Network H)
    (pow_bits : ∀ header bits, net.validatePow header (net.target bits) = true → header.bits = bits)
    (checkpoints : List (Checkpoint H)) (distinct : (checkpoints.map Checkpoint.height).Nodup)
    (batches : List (List (Header H))) (limit : Nat) {header parent : Header H}
    {below : List (Header H)} (branch : net.IsBranch (parent :: below))
    (link : header.prevBlockhash = net.blockHash parent)
    (held : ((HeaderTree.run net checkpoints batches).heightOf header.prevBlockhash).isSome)
    (listed : ∀ c ∈ checkpoints, c.height = (parent :: below).length → c.hash = net.blockHash header)
    (above : ∀ r, (HeaderTree.run net checkpoints batches).reachedCheckpoint = some r →
      r < (parent :: below).length) :
    (HeaderTree.run net checkpoints batches).AgreesOnWork net limit header (parent :: below) ↔
      net.NoException limit header parent below ∨ ¬ net.meetsOwnTarget header := by
  obtain ⟨branches, S⟩ := run_synced net checkpoints distinct batches
  have sorted := run_checkpoints net checkpoints batches
  generalize HeaderTree.run net checkpoints batches = t at S held above sorted ⊢
  have parent_held : parent :: below ∈ branches := by
    rw [HeaderTree.heightOf, Option.isSome_map, Option.isSome_iff_exists] at held
    obtain ⟨entry, found⟩ := held
    obtain ⟨n, rest, member, key, -⟩ := S.lookup_iff.mp found
    rw [← S.toMapOf.eq_of_hash member branch (key.trans link)]
    exact member
  have accepted : t.accepts net header = true ↔
      header.bits = net.expectedBits (parent :: below) ∧ net.meetsOwnTarget header := by
    rw [S.toRepresents.accepts_iff parent_held link, ← net.pow_iff pow_bits]
    constructor
    · intro ok
      exact ⟨ok.1.target_le, ok.1.pow⟩
    · intro required
      refine ⟨⟨required.1, ?_, required.2⟩, above⟩
      intro c member
      rw [sorted, mem_sortedCheckpoints] at member
      exact listed c member
  rw [HeaderTree.AgreesOnWork, accepted, ← net.requiredBits_eq]
  tauto

theorem Params.network_pow_bits (params : Params) (header : Header (List Nat)) (bits : Nat)
    (pow : params.network.validatePow header (params.network.target bits) = true) :
    header.bits = bits := by
  simp only [network, Bool.and_eq_true, decide_eq_true_eq] at pow
  exact targetOf_injective pow.1

/-- The first block of testnet, half an hour after genesis. -/
theorem accepts_required_iff_testnet :
    (HeaderTree.run Params.testnet.network [] []).AgreesOnWork Params.testnet.network 0x1d00ffff
        (Params.mine Params.testnet.genesis 1 1296690402 0x1d00ffff) [Params.testnet.genesis] ↔
      Params.testnet.network.NoException 0x1d00ffff
          (Params.mine Params.testnet.genesis 1 1296690402 0x1d00ffff) Params.testnet.genesis [] ∨
        ¬ Params.testnet.network.meetsOwnTarget
          (Params.mine Params.testnet.genesis 1 1296690402 0x1d00ffff) := by
  refine accepts_required_iff Params.testnet.network Params.testnet.network_pow_bits [] (by simp) []
    0x1d00ffff .root rfl (by decide +kernel) (by simp) ?_
  intro r reached
  cases reached

/-! ## A testnet block after a long wait -/

namespace Testnet

/-- Blocks fast enough that the first retarget quarters the target. -/
def time (n : Nat) : Nat := 1296688602 + 150 * n

def bits (n : Nat) : Nat := if n < 2016 then 0x1d00ffff else 0x1c3fffc0

theorem plan : Params.Plan .testnet time bits 2016 where
  time_zero := rfl
  bits_zero := rfl
  easy := by
    have all : ∀ b ∈ [0x1d00ffff, 0x1c3fffc0],
        targetOf b ≤ Params.testnet.maxAttainableTarget := by decide +kernel
    intro n _
    apply all
    simp only [bits]
    split <;> simp
  inside := by
    intro n lt inside
    simp only [PERIOD] at inside
    simp only [bits]
    split_ifs <;> omega
  retarget := by
    intro n lt opens
    simp only [PERIOD] at opens
    obtain rfl : n = 2015 := by omega
    decide +kernel

/-- A block at height 2017, over twenty minutes after its parent, at minimum difficulty. -/
def lateBlock : Header (List Nat) :=
  Params.mine (Params.testnet.chain time bits 2016) 9000 (time 2016 + 1201) 0x1d00ffff

/-- Consensus asks the late block for the minimum difficulty, and it has it; the tree
    asks for its parent's bits. -/
theorem lateBlock_refused :
    ((HeaderTree.run Params.testnet.network [] [Params.testnet.headers time bits 2016]).heightOf
        lateBlock.prevBlockhash).isSome ∧
      ¬ (HeaderTree.run Params.testnet.network [] [Params.testnet.headers time bits 2016]).AgreesOnWork
        Params.testnet.network 0x1d00ffff lateBlock (Params.testnet.branch time bits 2016) := by
  have chain := Params.run_follows plan le_rfl
  obtain ⟨below, eq, length⟩ :=
    Params.branch_eq_cons .testnet time bits 2016
  have held : Params.testnet.chain time bits 2016 :: below ∈
      {b | ∃ k ≤ 2016, b = Params.testnet.branch time bits k} := ⟨2016, le_rfl, eq.symm⟩
  generalize HeaderTree.run Params.testnet.network [] [Params.testnet.headers time bits 2016] = t
    at chain ⊢
  have inside : (Params.testnet.chain time bits 2016 :: below).length % PERIOD ≠ 0 := by
    rw [List.length_cons, length]
    decide
  have link : lateBlock.prevBlockhash =
      Params.testnet.network.blockHash (Params.testnet.chain time bits 2016) := rfl
  constructor
  · rw [link, HeaderTree.heightOf, chain.represents.toMapOf.lookup held]
    rfl
  · intro agree
    have required : Params.testnet.network.requiredBits 0x1d00ffff lateBlock
        (Params.testnet.branch time bits 2016) = 0x1d00ffff := by
      have waited : (Params.testnet.chain time bits 2016).time + MIN_DIFFICULTY_SPACING <
          lateBlock.time := by
        rw [Params.chain_time plan]
        decide
      rw [eq, Network.requiredBits, if_neg (not_or.mpr ⟨inside, by decide⟩)]
      exact if_pos waited
    have own : Params.testnet.network.meetsOwnTarget lateBlock := by
      constructor
      · exact plan.easy 0 (by omega)
      · decide +kernel
    have accepted := agree.mpr ⟨required.symm ▸ rfl, own⟩
    have pow := ((chain.represents.accepts_iff held link).mp accepted).1.pow
    rw [Network.expectedBits_inside inside, Params.chain_bits plan] at pow
    revert pow
    decide +kernel

end Testnet

end P2PObserver
