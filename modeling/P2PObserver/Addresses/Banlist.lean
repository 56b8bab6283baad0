import P2PObserver.Addresses.PeerAddr

/-! # The ban list -/

namespace P2PObserver

/-- A CIDR network. -/
structure IpNet where
  addr : IpAddr
  prefixLen : UInt8
  deriving DecidableEq

namespace IpNet

/-- Whether the first `prefixLen` of `width` bits agree. -/
def samePrefix {n : Nat} (width prefixLen : Nat) (net ip : Bytes n) : Bool :=
  let shift := width - prefixLen
  let mask := if width ≤ shift then 0 else (2 ^ width - 1) <<< shift % 2 ^ width
  fromBytes net &&& mask == fromBytes ip &&& mask

def contains (net : IpNet) (ip : IpAddr) : Bool :=
  match net.addr, ip with
  | .v4 addr, .v4 ip => samePrefix 32 net.prefixLen.toNat addr ip
  | .v6 addr, .v6 ip => samePrefix 128 net.prefixLen.toNat addr ip
  | _, _ => false

end IpNet

/-- One ban. -/
structure BanEntry where
  comment : Option String
  nets : List IpNet
  hosts : List String

structure Banlist where
  entries : List BanEntry

namespace Banlist

def contains [AddrText] (banlist : Banlist) (addr : PeerAddr) : Bool :=
  match addr.ip with
  | some ip => banlist.entries.any fun e => e.nets.any fun net => net.contains ip
  | none => banlist.entries.any fun e => e.hosts.contains addr.display

/-- Add an entry without what is already covered; the number of new networks and hosts. -/
def add (banlist : Banlist) (entry : BanEntry) : Banlist × Nat :=
  let nets := entry.nets.filter fun n => !banlist.entries.any fun e => e.nets.contains n
  let hosts := entry.hosts.filter fun h => !banlist.entries.any fun e => e.hosts.contains h
  let added := nets.length + hosts.length
  if 0 < added then
    ({ banlist with
        entries := banlist.entries ++ [{ comment := entry.comment, nets, hosts }] }, added)
  else (banlist, added)

end Banlist

end P2PObserver
