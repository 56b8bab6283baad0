import Mathlib.Algebra.Ring.Nat

/-! # Retry delays, classes and forget rules

Unsigned integers that saturate, as the policy's arithmetic does, and the policy itself.
-/

namespace P2PObserver

/-- The nearest value below or at the largest `u32`. -/
def saturating (n : Nat) : UInt32 := .ofNat (min n (UInt32.size - 1))

def saturatingAdd (a b : UInt32) : UInt32 := saturating (a.toNat + b.toNat)

def saturatingSub (a b : UInt32) : UInt32 := .ofNat (a.toNat - b.toNat)

def saturatingMul (a b : UInt32) : UInt32 := saturating (a.toNat * b.toNat)

def saturatingPow (a : UInt32) (n : Nat) : UInt32 := saturating (a.toNat ^ n)

/-- One more, up to the largest `u8`. -/
def saturatingSucc (n : UInt8) : UInt8 := if n = 255 then n else n + 1

/-! ## Constants -/

def SHORT_SESSION_SECS : UInt32 := 31

def WEIGHT_UNKNOWN : Float32 := 70
def WEIGHT_WAS_GOOD : Float32 := 20
def WEIGHT_BAD : Float32 := 10

def MAX_RECONNECTS_PER_TICK : Nat := 25

def MANUAL_RETRY_SECS : UInt32 := 60
def OTHER_CHAIN_SECS : UInt32 := 24 * 60 * 60
def VIOLATION_SECS : UInt32 := 60 * 60
def STABLE_RECONNECT_SECS : UInt32 := 5
def PROXY_UNREACHABLE_SECS : UInt32 := 30
def NETWORK_UNREACHABLE_SECS : UInt32 := 60 * 60
def NETWORK_DISABLED_SECS : UInt32 := 24 * 60 * 60
def EVICTION_BASE_SECS : UInt32 := 60
def EVICTION_CAP_SECS : UInt32 := 60 * 60
def WAS_GOOD_BASE_SECS : UInt32 := 60
def WAS_GOOD_CAP_SECS : UInt32 := 6 * 60 * 60
def BAD_BASE_SECS : UInt32 := 60 * 60
def BAD_CAP_SECS : UInt32 := 7 * 24 * 60 * 60
def WAS_GOOD_FORGET_AFTER_SECS : UInt32 := 30 * 24 * 60 * 60
def BAD_FORGET_FAILURES_IF_STALE : UInt8 := 3
def BAD_FORGET_FAILURES_ALWAYS : UInt8 := 5
def BAD_ANNOUNCE_GRACE_SECS : UInt32 := 30 * 24 * 60 * 60

/-! ## Outcomes -/

inductive Origin where
  | manual
  | gossip
  deriving DecidableEq

/-- Why a dial did not produce a session. -/
inductive Reason where
  | connectionRefused
  | hostUnreachable
  | tcpConnectTimeout
  | v2TransportTimeout
  | versionHandshakeTimeout
  | v2TransportHandshake
  | versionHandshake
  | unexpectedEof
  | other
  deriving DecidableEq

/-- Why we could not make an attempt at all. -/
inductive OurFault where
  | networkUnreachable
  | proxyUnreachable
  | networkDisabled
  deriving DecidableEq

/-- What became of a dial. -/
inductive Outcome where
  | failed (reason : Reason)
  | disconnected (uptimeSecs : UInt32) (silent : Bool)
  | otherChain
  | violated
  | ourFault (fault : OurFault)
  deriving DecidableEq

def Outcome.isShortSession : Outcome → Bool
  | .disconnected uptimeSecs silent => silent || uptimeSecs < SHORT_SESSION_SECS
  | _ => false

/-! ## Classes -/

inductive Class where
  | unknown
  | good
  | wasGood
  | bad
  deriving DecidableEq

def classify (tried : Bool) (lastSuccess : UInt32) (lastAttemptFailed : Bool) : Class :=
  if 0 < lastSuccess then
    if lastAttemptFailed then .wasGood else .good
  else if tried then .bad
  else .unknown

/-! ## Delays -/

/-- `base * factor ^ (n - 1)`, clamped to `cap`. -/
def expBackoff (base factor : UInt32) (n : UInt8) (cap : UInt32) : UInt32 :=
  min (saturatingMul base (saturatingPow factor (n.toNat - 1))) cap

def retryDelaySecs (outcome : Outcome) (origin : Origin) (connectedBefore : Bool)
    (failures shortSessions : UInt8) : UInt32 :=
  if outcome = .otherChain then OTHER_CHAIN_SECS
  else if origin = .manual then MANUAL_RETRY_SECS
  else
    match outcome with
    | .otherChain => OTHER_CHAIN_SECS
    | .violated => VIOLATION_SECS
    | .ourFault .proxyUnreachable => PROXY_UNREACHABLE_SECS
    | .ourFault .networkUnreachable => NETWORK_UNREACHABLE_SECS
    | .ourFault .networkDisabled => NETWORK_DISABLED_SECS
    | .disconnected .. =>
        if outcome.isShortSession then
          expBackoff EVICTION_BASE_SECS 2 shortSessions EVICTION_CAP_SECS
        else STABLE_RECONNECT_SECS
    | .failed _ =>
        if connectedBefore then expBackoff WAS_GOOD_BASE_SECS 2 failures WAS_GOOD_CAP_SECS
        else expBackoff BAD_BASE_SECS 4 failures BAD_CAP_SECS

/-- Spread a delay by a tenth either way; `r` is drawn from `[0, 1)`. -/
def jitter (delaySecs : UInt32) (r : Float32) : UInt32 :=
  let spread := delaySecs.toFloat32 * 0.1
  let offset := spread * (r * 2.0 - 1.0)
  (max (delaySecs.toFloat32 + offset).round 1.0).toUInt32

def shouldForget (now : UInt32) (origin : Origin) (lastSuccess lastAnnounced : UInt32)
    (failures : UInt8) : Bool :=
  if origin = .manual then false
  else if 0 < lastSuccess then WAS_GOOD_FORGET_AFTER_SECS < saturatingSub now lastSuccess
  else if BAD_FORGET_FAILURES_ALWAYS ≤ failures then true
  else if BAD_FORGET_FAILURES_IF_STALE ≤ failures then
    BAD_ANNOUNCE_GRACE_SECS < saturatingSub now lastAnnounced
  else false

end P2PObserver
