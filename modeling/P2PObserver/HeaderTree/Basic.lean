import Mathlib.Data.Rat.Defs
import Mathlib.Algebra.Order.Field.Rat
import Mathlib.Data.List.Sort
import P2PObserver.Lib.HashMap
import P2PObserver.Lib.Lineage

/-! # The header tree's data

The types of `headertree.rs`. Block hashes are a type parameter; what the tree
takes from rust-bitcoin comes as one `Network`, fixed for the life of a tree.

Heights and work are numbers without a bound here, where the source has a `u32`
and a `Work` of 256 bits. No chain of headers that were mined comes near the end
of either, so neither addition is taken to wrap.
-/

namespace P2PObserver

/-- A block header as it travels on the wire. -/
structure Header (H : Type) where
  version : Int
  prevBlockhash : H
  merkleRoot : Nat
  time : Nat
  bits : Nat
  nonce : Nat
  deriving DecidableEq, Repr

/-- The rust-bitcoin side of one network: hashing, targets and work, the
    retarget rule and the network parameters. Block hashes are collision free
    and every header carries some work. -/
structure Network (H : Type) where
  blockHash : Header H → H
  /-- The all-zero hash, which a getheaders carries for "no stop". -/
  zeroHash : H
  /-- `genesis_block(&params)`. -/
  genesis : Header H
  /-- `Target::from` of a compact target. -/
  target : Nat → Nat
  /-- `Header::work`. -/
  work : Header H → Nat
  /-- `Header::validate_pow` against a required target. -/
  validatePow : Header H → Nat → Bool
  /-- `CompactTarget::from_header_difficulty_adjustment` of the first and the
      last header of a period. -/
  fromHeaderDifficultyAdjustment : Header H → Header H → Nat
  /-- `Target::difficulty_float`; a finite float is a rational. -/
  difficultyFloat : Nat → ℚ
  maxAttainableTarget : Nat
  allowMinDifficultyBlocks : Bool
  blockHash_injective : Function.Injective blockHash
  work_pos : ∀ header, 0 < work header

/-- A block hash the chain must have at a height. -/
structure Checkpoint (H : Type) where
  height : Nat
  hash : H
  deriving DecidableEq, Repr

structure HeaderEntry (H : Type) where
  header : Header H
  height : Nat
  chainWork : Nat
  deriving DecidableEq, Repr

/-- The requests out for one block the tree does not have. -/
structure Recovery where
  started : Nat
  requests : Nat
  deriving DecidableEq, Repr

inductive HeaderError where
  | orphanHeader
  /-- The parent is unknown and the header's own target is far easier than our
      chain's. -/
  | weakerChain
  | invalidPow
  | targetTooEasy
  /-- A header at a checkpoint height with another hash. -/
  | checkpointMismatch
  /-- A header at or below a checkpoint the tree has reached. -/
  | forkBelowCheckpoint
  deriving DecidableEq, Repr

/-- Whether a refusal says the peer follows a chain we will never accept,
    rather than that we are behind. -/
def HeaderError.isOtherChain : HeaderError → Bool
  | .orphanHeader => false
  | .weakerChain | .invalidPow | .targetTooEasy | .checkpointMismatch
  | .forkBelowCheckpoint => true

/-- Headers the tree has refused that it keeps the reason for. -/
def REJECTED_REMEMBERED : Nat := 8192

/-- How much easier than our tip's an unplaceable header's target may be. -/
def WEAKER_CHAIN_FACTOR : ℚ := 4

/-- Headers in one difficulty period. -/
def PERIOD : Nat := 2016

/-- The tree. `params` is the `Network` the operations take. -/
structure HeaderTree (H : Type) where
  headers : HashMap H (HeaderEntry H)
  /-- `bestChain[height]` is the hash on the current best chain. -/
  bestChain : List H
  tip : H
  tipHeight : Nat
  tipWork : Nat
  dirty : Bool
  /-- Sorted by height. -/
  checkpoints : List (Checkpoint H)
  /-- Height of the highest checkpoint whose block the tree holds. -/
  reachedCheckpoint : Option Nat
  /-- Headers removed below a reached checkpoint since the tree was made. -/
  pruned : Nat
  recovery : HashMap H Recovery
  /-- Refused headers, with why and the sequence number that orders them. -/
  rejected : HashMap H (HeaderError × Nat)
  /-- The refusals by sequence number. -/
  rejectedOrder : HashMap Nat H
  /-- The last sequence number handed out. -/
  rejectedSeq : Nat

namespace Network

variable {H : Type} (net : Network H)

/-- Headers as nodes hanging off the genesis block. -/
def lineage : Lineage (Header H) H where
  key := net.blockHash
  parent := Header.prevBlockhash
  root := net.genesis
  key_injective := net.blockHash_injective

def genesisHash : H := net.blockHash net.genesis

/-- A header followed by its ancestors down to genesis. -/
abbrev IsBranch (branch : List (Header H)) : Prop := net.lineage.IsBranch branch

/-- Work accumulated along a branch. -/
def chainWork (branch : List (Header H)) : Nat := (branch.map net.work).sum

end Network

end P2PObserver
