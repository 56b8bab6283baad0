import Mathlib.Data.List.Lex
import P2PObserver.HeaderTree.Basic

/-! # Networks with transparent hashes

Concrete networks to run the tree on: rust-bitcoin's compact targets, work and
retarget, and a block hash that spells its header out. A hash that long is free of
collisions by construction. The nonce stands for the number proof of work looks at.
-/

namespace P2PObserver

/-- `Target::from_compact`. -/
def fromCompact (bits : Nat) : Nat :=
  let size := bits % 2 ^ 32 / 2 ^ 24
  let mantissa := bits % 2 ^ 24
  if 2 ^ 23 ≤ mantissa then 0
  else if size ≤ 3 then mantissa / 2 ^ (8 * (3 - size))
  else mantissa * 2 ^ (8 * (size - 3)) % 2 ^ 256

/-- `Target::to_compact_lossy`. -/
def toCompactLossy (target : Nat) : Nat :=
  let size := (target.log2 + 1 + 7) / 8
  let mantissa := if size ≤ 3 then target * 2 ^ (8 * (3 - size)) else target / 2 ^ (8 * (size - 3))
  if 2 ^ 23 ≤ mantissa then (size + 1) * 2 ^ 24 + mantissa / 2 ^ 8
  else size * 2 ^ 24 + mantissa

/-- The target of compact bits; bits no target is written as lie out of range. -/
def targetOf (bits : Nat) : Nat :=
  if toCompactLossy (fromCompact bits) = bits then fromCompact bits else 2 ^ 256 + bits

theorem fromCompact_lt (bits : Nat) : fromCompact bits < 2 ^ 256 := by
  simp only [fromCompact]
  split
  · simp
  · split
    · have small : bits % 2 ^ 24 < 2 ^ 24 := Nat.mod_lt _ (by simp)
      exact (Nat.div_le_self _ _).trans_lt (small.trans (by simp))
    · exact Nat.mod_lt _ (by simp)

theorem targetOf_injective : Function.Injective targetOf := by
  intro bits bits' same
  have small := fromCompact_lt bits
  have small' := fromCompact_lt bits'
  simp only [targetOf] at same
  split at same
  · rename_i canonical
    split at same
    · rename_i canonical'
      rw [← canonical, same, canonical']
    · omega
  · split at same
    · omega
    · omega

/-- What tells one network from another. -/
structure Params where
  genesisTime : Nat
  genesisBits : Nat
  genesisNonce : Nat
  maxAttainableTarget : Nat
  allowMinDifficultyBlocks : Bool
  noPowRetargeting : Bool

/-- Two weeks. -/
def powTargetTimespan : Nat := 14 * 24 * 60 * 60

namespace Params

def mainnet : Params where
  genesisTime := 1231006505
  genesisBits := 0x1d00ffff
  genesisNonce := 0
  maxAttainableTarget := 0xffff * 2 ^ 208
  allowMinDifficultyBlocks := false
  noPowRetargeting := false

def testnet : Params where
  genesisTime := 1296688602
  genesisBits := 0x1d00ffff
  genesisNonce := 0
  maxAttainableTarget := 0xffff * 2 ^ 208
  allowMinDifficultyBlocks := true
  noPowRetargeting := false

/-- `CompactTarget::from_next_work_required`. -/
def fromNextWorkRequired (params : Params) (last timespan : Nat) : Nat :=
  if params.noPowRetargeting then last
  else
    let actual := max (powTargetTimespan / 4) (min timespan (powTargetTimespan * 4))
    let maximum := min (targetOf last * 4) params.maxAttainableTarget
    toCompactLossy (min (targetOf last * actual / powTargetTimespan) maximum)

/-- A hash that lists the header, its parent's hash last. -/
def blockHash (header : Header (List Nat)) : List Nat :=
  header.version.toNat :: (-header.version).toNat :: header.merkleRoot :: header.time ::
    header.bits :: header.nonce :: header.prevBlockhash

theorem blockHash_injective : Function.Injective blockHash := by
  intro header header' same
  cases header with
  | mk version prev merkle time bits nonce =>
      cases header' with
      | mk version' prev' merkle' time' bits' nonce' =>
          simp only [blockHash, List.cons.injEq] at same
          obtain ⟨up, down, rfl, rfl, rfl, rfl, rfl⟩ := same
          have eq : version = version' := by omega
          rw [eq]

def genesis (params : Params) : Header (List Nat) where
  version := 1
  prevBlockhash := []
  merkleRoot := 0
  time := params.genesisTime
  bits := params.genesisBits
  nonce := params.genesisNonce

/-- `Target::to_work`: how many hashes a target takes. -/
def toWork (target : Nat) : Nat := (2 ^ 256 - 1 - target) / (target + 1) + 1

/-- The network with these parameters and transparent hashes. -/
def network (params : Params) : Network (List Nat) where
  blockHash := blockHash
  zeroHash := []
  genesis := params.genesis
  target := targetOf
  work header := toWork (targetOf header.bits)
  validatePow header required :=
    decide (targetOf header.bits = required) && decide (header.nonce ≤ required)
  fromHeaderDifficultyAdjustment first last :=
    params.fromNextWorkRequired last.bits (last.time - first.time)
  difficultyFloat target := params.maxAttainableTarget / target
  maxAttainableTarget := params.maxAttainableTarget
  allowMinDifficultyBlocks := params.allowMinDifficultyBlocks
  blockHash_injective := blockHash_injective
  work_pos _ := Nat.succ_pos _

/-- A header mined on `parent` with the bits it asks for. -/
def mine (parent : Header (List Nat)) (merkleRoot time bits : Nat) : Header (List Nat) where
  version := 1
  prevBlockhash := blockHash parent
  merkleRoot := merkleRoot
  time := time
  bits := bits
  nonce := 0

end Params

end P2PObserver
