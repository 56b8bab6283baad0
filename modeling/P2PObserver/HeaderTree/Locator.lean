import P2PObserver.HeaderTree.Insert

/-! # Locators and requests for headers

What a getheaders of ours is built from, how one of a peer's is answered, and when an
announcement is worth a request of its own.
-/

namespace P2PObserver

variable {H : Type} [LinearOrder H]

/-- Headers a reply to a getheaders has at most. -/
def MAX_HEADERS_RESULTS : Nat := 2000

/-- How many connections ask for one missing block within an interval. -/
def RECOVERY_PEERS : Nat := 3

/-- The gap between two rounds of requests for the same block, in nanoseconds. -/
def RECOVERY_INTERVAL : Nat := 10 * 10 ^ 9

namespace HeaderTree

/-- The walk of `build_locator` down from a height. The fuel bounds the source's `while`. -/
def locatorFrom (bestChain : List H) : Nat → Nat → Nat → List H
  | 0, _, _ => []
  | fuel + 1, height, step =>
      bestChain[height]?.toList ++
        if height = 0 then []
        else locatorFrom bestChain fuel (height - step) (if step < 16 then step + 1 else step * 2)

/-- `build_locator`: exponentially farther back from the tip, genesis last. -/
def buildLocator (t : HeaderTree H) : List H :=
  let locator := locatorFrom t.bestChain (t.tipHeight + 1) t.tipHeight 1
  if locator.getLast? = t.bestChain.head? then locator else locator ++ t.bestChain.head?.toList

/-- Where a locator hash lies on the best chain. -/
def onBestChain (t : HeaderTree H) (hash : H) : Option Nat :=
  match t.headers.lookup hash with
  | none => none
  | some entry => if t.bestChain[entry.height]? = some hash then some entry.height else none

/-- The headers of hashes of the best chain, up to and with the stop hash. -/
def headersThrough (net : Network H) (t : HeaderTree H) (stop : H) : List H → List (Header H)
  | [] => []
  | hash :: rest =>
      match t.headers.lookup hash with
      -- The best chain holds no hash the map lacks.
      | none => []
      | some entry =>
          entry.header ::
            if stop ≠ net.zeroHash ∧ hash = stop then [] else headersThrough net t stop rest

/-- `get_headers_from_locator`: the headers after the first locator hash on the best chain. -/
def getHeadersFromLocator (net : Network H) (t : HeaderTree H) (locator : List H) (stop : H) :
    List (Header H) :=
  let startHeight := (locator.findSome? fun hash => (t.onBestChain hash).map (· + 1)).getD 1
  t.headersThrough net stop ((t.bestChain.drop startHeight).take MAX_HEADERS_RESULTS)

/-- `recovery_due`: whether to ask a peer for headers now, or leave it to the requests out. -/
def recoveryDue (t : HeaderTree H) (missing : H) (proven : Bool) (now : Nat) :
    Bool × HeaderTree H :=
  let recovery := HashMap.retain (fun _ r => now - r.started < RECOVERY_INTERVAL) t.recovery
  match recovery.lookup missing with
  | none =>
      (true, { t with recovery := recovery.insert missing { started := now, requests := 1 } })
  | some r =>
      if proven && r.requests < RECOVERY_PEERS then
        (true, { t with
          recovery := recovery.insert missing { r with requests := r.requests + 1 } })
      else (false, { t with recovery })

end HeaderTree

end P2PObserver
