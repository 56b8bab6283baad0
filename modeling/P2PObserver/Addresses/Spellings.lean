import P2PObserver.Addresses.Bans

/-! # Which spellings ban an address

An address is normalised when it is parsed, a ban is not: a bare network holds the IP its
text spells, a host is the text itself. So a ban covers an address in the spelling that is
the address's own.
-/

namespace P2PObserver

/-- The IP addresses of the standard library. -/
class IpText extends SocketText where
  /-- `str::parse::<IpAddr>`. -/
  ipAddr : String → Option IpAddr
  ipAddr_chars : ∀ text ip, ipAddr text = some ip → '/' ∉ text.toList

/-- Splits at the first separator. -/
def splitOnce (sep : Char) : List Char → Option (List Char × List Char)
  | [] => none
  | char :: rest =>
      if char = sep then some ([], rest)
      else (splitOnce sep rest).map fun parts => (char :: parts.1, parts.2)

theorem splitOnce_none {sep : Char} {s : List Char} (absent : sep ∉ s) :
    splitOnce sep s = none := by
  induction s with
  | nil => rfl
  | cons char rest ih =>
      rw [List.mem_cons, not_or] at absent
      rw [splitOnce, if_neg (Ne.symm absent.1), ih absent.2]
      rfl

/-- `str::parse::<u8>`. -/
def parseU8 (s : List Char) : Option UInt8 := (parseUnsigned 256 s).map Nat.toUInt8

namespace IpAddr

/-- `Display` of an IP address. -/
def display [AddrText] : IpAddr → String
  | .v4 octets => AddrText.ipv4 octets
  | .v6 octets => AddrText.ipv6 octets

def maxPrefix : IpAddr → UInt8
  | .v4 _ => 32
  | .v6 _ => 128

/-- The length a network gives its prefix. -/
def prefixLen (addr : IpAddr) : Option (List Char) → Except String UInt8
  | some bits =>
      match parseU8 bits with
      | none => .error ("invalid prefix length: " ++ String.ofList bits)
      | some len => .ok len
  | none => .ok addr.maxPrefix

end IpAddr

namespace IpNet

variable [IpText]

/-- `FromStr` of a network; a bare address means that host alone. -/
def fromStr (s : String) : Except String IpNet :=
  let (addrStr, prefixStr) := match splitOnce '/' s.toList with
    | some (addr, bits) => (addr, some bits)
    | none => (s.toList, none)
  match IpText.ipAddr (String.ofList addrStr) with
  | none => .error ("invalid IP address: " ++ String.ofList addrStr)
  | some addr =>
      match addr.prefixLen prefixStr with
      | .error e => .error e
      | .ok len =>
          if addr.maxPrefix < len then
            .error ("prefix length " ++ toString len.toNat ++ " exceeds maximum " ++
              toString addr.maxPrefix.toNat ++ " for " ++ addr.display)
          else .ok ⟨addr, len⟩

/-- A bare address is the network of that host alone. -/
theorem fromStr_bare {text : String} {ip : IpAddr} (read : IpText.ipAddr text = some ip) :
    fromStr text = .ok ⟨ip, ip.maxPrefix⟩ := by
  unfold fromStr
  rw [splitOnce_none (IpText.ipAddr_chars text ip read)]
  dsimp only
  rw [String.ofList_toList, read]
  exact if_neg (UInt8.lt_irrefl _)

end IpNet

/-! ## Networks of one host -/

/-- The bytes of an address are the digits of its number. -/
theorem foldl_bytes_inj {xs : List UInt8} : ∀ {ys : List UInt8} {a b : Nat},
    xs.length = ys.length →
    xs.foldl (fun acc byte => acc * 256 + byte.toNat) a =
      ys.foldl (fun acc byte => acc * 256 + byte.toNat) b → a = b ∧ xs = ys := by
  induction xs with
  | nil =>
      intro ys a b long same
      obtain rfl := List.length_eq_zero_iff.mp long.symm
      exact ⟨same, rfl⟩
  | cons x xs ih =>
      intro ys a b long same
      cases ys with
      | nil => cases long
      | cons y ys =>
          obtain ⟨heads, rfl⟩ := ih (Nat.succ.inj long) same
          dsimp only at heads
          have := x.toNat_lt
          have := y.toNat_lt
          have digit : x.toNat = y.toNat := by omega
          exact ⟨by omega, by rw [UInt8.toNat_inj.mp digit]⟩

theorem fromBytes_inj {n : Nat} {x y : Bytes n} (same : fromBytes x = fromBytes y) : x = y :=
  Subtype.ext (foldl_bytes_inj (x.property.trans y.property.symm) same).2

theorem fromBytes_lt {n : Nat} (x : Bytes n) : fromBytes x < 2 ^ (8 * n) := by
  have grows : ∀ (xs : List UInt8) (a k : Nat), a < 2 ^ k →
      xs.foldl (fun acc byte => acc * 256 + byte.toNat) a < 2 ^ (k + 8 * xs.length) := by
    intro xs
    induction xs with
    | nil => exact fun a k small => small
    | cons x xs ih =>
        intro a k small
        have byte := x.toNat_lt
        have more : a * 256 + x.toNat < 2 ^ (k + 8) := by
          rw [Nat.pow_add]
          omega
        have rest := ih _ _ more
        rw [List.length_cons, show k + 8 * (xs.length + 1) = k + 8 + 8 * xs.length by omega]
        exact rest
  have whole := grows x.val 0 0 Nat.one_pos
  rw [x.property, Nat.zero_add] at whole
  exact whole

theorem samePrefix_whole {n : Nat} (width : 8 * n ≠ 0) (x y : Bytes n) :
    IpNet.samePrefix (8 * n) (8 * n) x y = true ↔ x = y := by
  have mask : (2 ^ (8 * n) - 1) <<< 0 % 2 ^ (8 * n) = 2 ^ (8 * n) - 1 := by
    rw [Nat.shiftLeft_zero]
    exact Nat.mod_eq_of_lt (Nat.sub_lt (Nat.two_pow_pos _) Nat.one_pos)
  unfold IpNet.samePrefix
  dsimp only
  rw [Nat.sub_self, if_neg (by omega), mask, Nat.and_two_pow_sub_one_eq_mod,
    Nat.and_two_pow_sub_one_eq_mod, Nat.mod_eq_of_lt (fromBytes_lt x),
    Nat.mod_eq_of_lt (fromBytes_lt y), beq_iff_eq]
  exact ⟨fromBytes_inj, congrArg fromBytes⟩

/-- The network of one host holds that host only. -/
theorem IpNet.contains_bare (ip ip' : IpAddr) :
    IpNet.contains ⟨ip, ip.maxPrefix⟩ ip' = true ↔ ip = ip' := by
  cases ip with
  | v4 x =>
      cases ip' with
      | v4 y =>
          rw [IpAddr.v4.injEq]
          exact samePrefix_whole (by decide) x y
      | v6 y => simp [contains]
  | v6 x =>
      cases ip' with
      | v4 y => simp [contains]
      | v6 y =>
          rw [IpAddr.v6.injEq]
          exact samePrefix_whole (by decide) x y

/-! ## Spellings -/

namespace PeerAddr

/-- The IP address a text spells, before it is normalised, and whether under CJDNS. -/
def spelledIp [SocketText] (s : String) : Option (IpAddr × Bool) :=
  let lower := s.toList.map Char.toLower
  match lower.dropPrefix? "cjdns:".toList with
  | some rest => (SocketText.socketAddr (String.ofList rest)).map fun sa => (sa.ip, true)
  | none => (SocketText.socketAddr (String.ofList lower)).map fun sa => (sa.ip, false)

/-- An IPv4 address spelled as the IPv6 one it is mapped to. -/
def MappedSpelling [SocketText] (s : String) : Prop :=
  ∃ ip v4, spelledIp s = some (.v6 ip, false) ∧ toIpv4Mapped ip = some v4

/-- A text that spells the address as it is kept. -/
def OwnSpelling [SocketText] (s : String) (a : PeerAddr) : Prop :=
  match a.ip with
  | some _ => ¬MappedSpelling s
  | none => s = a.display

/-- A ban made of a text: its IP part as a bare network, or else the text as a host. -/
def BuiltFrom [IpText] (s : String) (a : PeerAddr) (entry : BanEntry) : Prop :=
  match a.ip with
  | some _ => ∃ part ip cjdns net, spelledIp s = some (ip, cjdns) ∧
      IpText.ipAddr part = some ip ∧ IpNet.fromStr part = .ok net ∧
        entry.nets = [net] ∧ entry.hosts = []
  | none => entry.nets = [] ∧ entry.hosts = [s]

variable [SocketText]

/-- An address with an IP comes from a socket address the text spells. -/
theorem parse_spelledIp {s : String} {a : PeerAddr} {own : IpAddr} (read : parse s = some a)
    (isIp : a.ip = some own) :
    (∃ ip port, spelledIp s = some (.v6 ip, true) ∧ a = .cjdns ip port) ∨
      ∃ sa, spelledIp s = some (sa.ip, false) ∧ a = fromSocketAddr sa := by
  have socket {lower : List Char} (noPrefix : lower.dropPrefix? "cjdns:".toList = none)
      (lowered : lower = s.toList.map Char.toLower) (read : parseSocket lower = some a) :
      ∃ sa, spelledIp s = some (sa.ip, false) ∧ a = fromSocketAddr sa := by
    obtain ⟨sa, found, rfl⟩ := Option.map_eq_some_iff.mp read
    refine ⟨sa, ?_, rfl⟩
    unfold spelledIp
    dsimp only
    rw [← lowered, noPrefix]
    dsimp only
    rw [found, Option.map_some]
  unfold parse parseLower at read
  split at read
  · rename_i rest begins
    split at read
    · rename_i ip port found
      refine .inl ⟨ip, port, ?_, (Option.some.inj read).symm⟩
      unfold spelledIp
      dsimp only
      rw [begins]
      dsimp only
      rw [found, Option.map_some]
    · cases read
  · rename_i noPrefix
    right
    split at read
    · exact socket noPrefix rfl read
    · split at read
      · exact socket noPrefix rfl read
      · unfold parseHost at read
        split at read
        · obtain ⟨hash, -, rfl⟩ := Option.map_eq_some_iff.mp read
          cases isIp
        · split at read
          · obtain ⟨key, -, rfl⟩ := Option.map_eq_some_iff.mp read
            cases isIp
          · exact socket noPrefix rfl read

/-- The IP of an address is the one a text spells unless the text is mapped. -/
theorem spelledIp_own {s : String} {a : PeerAddr} {own ip : IpAddr} {cjdns : Bool}
    (read : parse s = some a) (isIp : a.ip = some own) (spelled : spelledIp s = some (ip, cjdns)) :
    ip = own ↔ ¬MappedSpelling s := by
  unfold MappedSpelling
  rcases parse_spelledIp read isIp with ⟨ip', port, spelled', rfl⟩ | ⟨⟨ip', port⟩, spelled', rfl⟩
  · rw [spelled'] at spelled
    cases spelled
    cases isIp
    simp [spelled']
  · rw [spelled'] at spelled
    cases spelled
    rw [spelled']
    unfold fromSocketAddr at isIp
    cases ip' with
    | v4 x =>
        cases isIp
        simp
    | v6 x =>
        cases mapped : toIpv4Mapped x with
        | some v4 =>
            simp only [mapped] at isIp
            cases isIp
            simp only [reduceCtorEq, false_iff, not_not]
            exact ⟨x, v4, rfl, mapped⟩
        | none =>
            simp only [mapped] at isIp
            have kept : own = .v6 x := by
              split at isIp <;> exact (Option.some.inj isIp).symm
            simp [kept, mapped]

end PeerAddr

/-- A ban made of a text that names an address covers it in its own spelling only. -/
theorem add_builtFrom_iff [IpText] (banlist : Banlist) {s : String} {a : PeerAddr}
    {entry : BanEntry} (read : PeerAddr.parse s = some a) (built : PeerAddr.BuiltFrom s a entry) :
    (banlist.add entry).1.contains a = true ↔
      banlist.contains a = true ∨ PeerAddr.OwnSpelling s a := by
  rw [Banlist.contains_add, Bool.or_eq_true, Banlist.matchesEntry_iff]
  apply or_congr_right
  unfold PeerAddr.BuiltFrom at built
  unfold PeerAddr.OwnSpelling
  cases isIp : a.ip with
  | some own =>
      rw [isIp] at built
      obtain ⟨part, ip, cjdns, net, spelled, text, parsed, nets, -⟩ := built
      rw [IpNet.fromStr_bare text] at parsed
      cases parsed
      rw [nets]
      simp only [Option.some.injEq, exists_eq_left', List.mem_singleton, exists_eq_left,
        reduceCtorEq, false_and, or_false]
      rw [IpNet.contains_bare]
      exact PeerAddr.spelledIp_own read isIp spelled
  | none =>
      rw [isIp] at built
      obtain ⟨nets, hosts⟩ := built
      rw [nets, hosts]
      constructor
      · intro bans
        rcases bans with ⟨ip, absent, -⟩ | ⟨-, listed⟩
        · cases absent
        · exact (List.mem_singleton.mp listed).symm
      · intro same
        exact .inr ⟨rfl, List.mem_singleton.mpr same.symm⟩

/-! ## Other spellings -/

namespace PlainText

/-- An IPv6 address has colons, an IPv4 address dots. -/
def readAddr (text : List Char) : Option IpAddr :=
  if '/' ∈ text then none
  else if ':' ∈ text then (readBytes 16 (readGroups (text.splitOn ':'))).map .v6
  else (readBytes 4 ((text.splitOn '.').map readDecimal)).map .v4

end PlainText

/-- The plain text forms, IP addresses included. -/
@[reducible] def plainIp : IpText where
  toSocketText := plainText
  ipAddr text := PlainText.readAddr text.toList
  ipAddr_chars text ip read := by
    unfold PlainText.readAddr at read
    split at read
    · cases read
    · assumption

namespace Misspelled

def octets : Bytes 4 := ⟨[45, 6, 7, 8], rfl⟩

/-- An IPv4 address as the IPv6 one it is mapped to. -/
def mapped : String := "[0000:0000:0000:0000:0000:ffff:2d06:0708]:8333"

def mappedPart : String := "0000:0000:0000:0000:0000:ffff:2d06:0708"

def peer : PeerAddr := .ipv4 octets 8333

def mappedNet : IpNet :=
  ⟨.v6 ⟨[0, 0, 0, 0, 0, 0, 0, 0, 0, 0, 0xff, 0xff, 45, 6, 7, 8], rfl⟩, 128⟩

/-- An I2P name in capitals. -/
def upper : String := "AAAAAAAAAAAAAAAAAAAAAAAAAAAAAAAAAAAAAAAAAAAAAAAAAAAA.B32.I2P:8333"

def destination : PeerAddr := .i2p ⟨0 :: List.replicate 31 0, rfl⟩ 8333

end Misspelled

open Misspelled in
/-- A ban does not cover an address it spells as a mapped one, or in capitals. -/
theorem misspelled_unbanned :
    (¬ ∀ (_ : IpText) (banlist : Banlist) (s : String) (a : PeerAddr) (entry : BanEntry),
      PeerAddr.parse s = some a → a.ip.isSome → PeerAddr.BuiltFrom s a entry →
        (banlist.add entry).1.contains a = true) ∧
    ¬ ∀ (_ : IpText) (banlist : Banlist) (s : String) (a : PeerAddr) (entry : BanEntry),
      PeerAddr.parse s = some a → a.ip = none → PeerAddr.BuiltFrom s a entry →
        (banlist.add entry).1.contains a = true := by
  constructor
  · intro all
    have banned := all plainIp ⟨[]⟩ mapped peer ⟨none, [mappedNet], []⟩ (by decide +kernel) rfl
      ⟨mappedPart, mappedNet.addr, false, mappedNet, by decide +kernel, by decide +kernel,
        by decide +kernel, rfl, rfl⟩
    exact absurd banned (by decide +kernel)
  · intro all
    have banned := all plainIp ⟨[]⟩ upper destination ⟨none, [], [upper]⟩ (by decide +kernel) rfl
      ⟨rfl, rfl⟩
    exact absurd banned (by decide +kernel)

open Misspelled in
/-- The same peer in its own spelling. -/
theorem add_builtFrom_iff_plain :
    @Banlist.contains plainText.toAddrText
        (Banlist.add ⟨[]⟩ ⟨none, [⟨.v4 octets, 32⟩], []⟩).1 peer = true ↔
      @Banlist.contains plainText.toAddrText ⟨[]⟩ peer = true ∨
        @PeerAddr.OwnSpelling plainText "45.6.7.8:8333" peer :=
  @add_builtFrom_iff plainIp ⟨[]⟩ "45.6.7.8:8333" peer _ (by decide +kernel)
    ⟨"45.6.7.8", .v4 octets, false, _, by decide +kernel, by decide +kernel,
      by decide +kernel, rfl, rfl⟩

end P2PObserver
