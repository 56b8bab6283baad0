import P2PObserver.Addresses.Networks
import P2PObserver.Addresses.ParseDisplay

/-! # Address labels

The network of an address, read off its text. The observer prints a CJDNS address behind a prefix
the reader does not know, so every network but that one is read as it was written.
-/

namespace P2PObserver

namespace Metrics

/-- The IP addresses of the standard library, as far as a label looks at them. -/
class HostText extends IpReads where
  /-- `str::parse::<Ipv6Addr>`. -/
  ipv6Addr : String → Option (Bytes 16)
  ipv6Addr_ipv6 : ∀ ip : Bytes 16, ipv6Addr (AddrText.ipv6 ip) = some ip
  ipAddr_bracket : ∀ text ip, ipAddr text = some ip → '[' ∉ text.toList

/-- Where nothing says which. -/
def OTHER : String := "other"

variable [HostText]

/-- An IPv6 address in fc00::/8 is a CJDNS one. -/
def ipv6Net (ip : Bytes 16) : String := if ip.at 0 = 0xfc then "cjdns" else "ipv6"

def addressNet (addr : String) : String :=
  match rsplitOnce ':' addr.toList with
  | none => OTHER
  | some (host, _) =>
      if ".onion".toList.isSuffixOf host then "onion"
      else if ".b32.i2p".toList.isSuffixOf host then "i2p"
      else
        match (host.dropPrefix? ['[']).bind (·.dropSuffix? [']']) with
        | some inner =>
            match HostText.ipv6Addr (String.ofList inner) with
            | some ip => ipv6Net ip
            | none => OTHER
        | none =>
            match IpText.ipAddr (String.ofList host) with
            | some (.v4 _) => "ipv4"
            -- Not how the observer renders IPv6, but a bare one is still one.
            | some (.v6 ip) => ipv6Net ip
            | none => OTHER

omit [HostText] in
/-- The text before the port. -/
def host (addr : String) : String :=
  match rsplitOnce ':' addr.toList with
  | some (host, _) => String.ofList host
  | none => addr

end Metrics

namespace PeerAddr

open Metrics

/-- The label of a network. -/
def label : Net → String
  | .ipv4 => "ipv4"
  | .ipv6 => "ipv6"
  | .torV3 => "onion"
  | .i2p => "i2p"
  | .cjdns => "cjdns"

def withPort (a : PeerAddr) (port : UInt16) : PeerAddr :=
  match a with
  | .ipv4 bytes _ => .ipv4 bytes port
  | .ipv6 bytes _ => .ipv6 bytes port
  | .torV3 key _ => .torV3 key port
  | .i2p hash _ => .i2p hash port
  | .cjdns bytes _ => .cjdns bytes port

/-! ## Hosts -/

theorem withPort_canonical {a : PeerAddr} (canonical : a.Canonical) (port : UInt16) :
    (a.withPort port).Canonical := by
  cases a <;> exact canonical

theorem rsplitOnce_display [SocketText] (a : PeerAddr) :
    rsplitOnce ':' a.display.toList = some (a.hostText, Nat.toDigits 10 a.port.toNat) := by
  have no_colon : ':' ∉ Nat.toDigits 10 a.port.toNat := fun listed =>
    (toDigits_chars _ ':' listed).1 rfl
  rw [display_toList, rsplitOnce_append no_colon]

theorem hostText_withPort [SocketText] (a : PeerAddr) (port : UInt16) :
    (a.withPort port).hostText = a.hostText := by
  cases a <;> rfl

/-- A host names one address of each port. -/
theorem hostText_iff [SocketText] {a b : PeerAddr} (canonical : a.Canonical)
    (canonical' : b.Canonical) : a.hostText = b.hostText ↔ ∃ port, b = a.withPort port := by
  constructor
  · intro same
    have text : b.display = (a.withPort b.port).display := by
      apply String.toList_injective
      have port : (a.withPort b.port).port = b.port := by cases a <;> rfl
      rw [display_toList, display_toList, hostText_withPort, same, port]
    have read := parseLower_display canonical'
    rw [text, parseLower_display (withPort_canonical canonical _)] at read
    exact ⟨b.port, (Option.some.inj read).symm⟩
  · intro ⟨port, same⟩
    rw [same, hostText_withPort]

theorem host_display [SocketText] (a : PeerAddr) : host a.display = String.ofList a.hostText := by
  rw [host, rsplitOnce_display]

/-! ## Networks -/

section Labels

variable [HostText]

/-- A host that ends like neither of the two. -/
theorem addressNet_ip {a : PeerAddr} (not_onion : a.hostText.getLast? ≠ some 'n')
    (not_i2p : a.hostText.getLast? ≠ some 'p') :
    addressNet a.display =
      match (a.hostText.dropPrefix? ['[']).bind (·.dropSuffix? [']']) with
      | some inner =>
          match HostText.ipv6Addr (String.ofList inner) with
          | some ip => ipv6Net ip
          | none => OTHER
      | none =>
          match IpText.ipAddr (String.ofList a.hostText) with
          | some (.v4 _) => "ipv4"
          | some (.v6 ip) => ipv6Net ip
          | none => OTHER := by
  unfold addressNet
  rw [rsplitOnce_display]
  dsimp only
  rw [if_neg (not_isSuffixOf (by decide) not_onion), if_neg (not_isSuffixOf (by decide) not_i2p)]

omit [HostText] in
theorem no_bracket {text : List Char} (absent : '[' ∉ text) : text.dropPrefix? ['['] = none := by
  cases found : text.dropPrefix? ['['] with
  | none => rfl
  | some rest =>
      obtain ⟨front, whole, same⟩ := List.dropPrefix?_eq_some_iff.mp found
      rw [eq_of_beq same] at whole
      exact absurd (by simp [whole]) absent

theorem addressNet_ipv4 (ip : Bytes 4) (port : UInt16) :
    addressNet (display (.ipv4 ip port)) = "ipv4" := by
  have chars := SocketText.ipv4_chars ip
  have absent {char : Char} (figure : ¬(char.isDigit ∨ char = '.')) :
      char ∉ (AddrText.ipv4 ip).toList := fun listed => figure (chars char listed)
  have last {char : Char} (figure : ¬(char.isDigit ∨ char = '.')) :
      (AddrText.ipv4 ip).toList.getLast? ≠ some char := fun ends =>
    absent figure (List.mem_of_getLast? ends)
  have read : IpText.ipAddr (AddrText.ipv4 ip) = some (.v4 ip) := IpReads.ipAddr_display (.v4 ip)
  have bare : hostText (.ipv4 ip port) = (AddrText.ipv4 ip).toList := rfl
  rw [addressNet_ip (a := .ipv4 ip port) (last (by decide)) (last (by decide)), bare,
    no_bracket (absent (by decide)), String.ofList_toList, read]
  rfl

theorem addressNet_ipv6 {ip : Bytes 16} (other : ip.at 0 ≠ 0xfc) (port : UInt16) :
    addressNet (display (.ipv6 ip port)) = "ipv6" := by
  have last : (hostText (.ipv6 ip port)).getLast? = some ']' :=
    List.getLast?_append_of_ne_nil _ (by decide)
  have inner : ((hostText (.ipv6 ip port)).dropPrefix? ['[']).bind (·.dropSuffix? [']']) =
      some (AddrText.ipv6 ip).toList := by
    have opened : (hostText (.ipv6 ip port)).dropPrefix? ['['] =
        some ((AddrText.ipv6 ip).toList ++ [']']) := by
      rw [List.dropPrefix?_eq_some_iff]
      exact ⟨['['], rfl, BEq.rfl⟩
    rw [opened, Option.bind_some, dropSuffix_append]
  rw [addressNet_ip (by rw [last]; decide) (by rw [last]; decide), inner]
  dsimp only
  rw [String.ofList_toList, HostText.ipv6Addr_ipv6]
  exact if_neg other

theorem addressNet_torV3 (key : Bytes 32) (port : UInt16) :
    addressNet (display (.torV3 key port)) = "onion" := by
  have ends : ".onion".toList.isSuffixOf (onionHost key).toList := by
    rw [onionHost_toList]
    exact List.isSuffixOf_iff_suffix.mpr (List.suffix_append ..)
  unfold addressNet
  rw [rsplitOnce_display]
  exact if_pos ends

theorem addressNet_i2p (hash : Bytes 32) (port : UInt16) :
    addressNet (display (.i2p hash port)) = "i2p" := by
  have last : (hostText (.i2p hash port)).getLast? = some 'p' :=
    List.getLast?_append_of_ne_nil _ (by decide)
  have ends : ".b32.i2p".toList.isSuffixOf (hostText (.i2p hash port)) :=
    List.isSuffixOf_iff_suffix.mpr (List.suffix_append ..)
  unfold addressNet
  rw [rsplitOnce_display]
  dsimp only
  rw [if_neg (not_isSuffixOf (by decide) (by rw [last]; decide)), if_pos ends]

/-- A CJDNS address is printed behind a prefix no IP address has. -/
theorem addressNet_cjdns (ip : Bytes 16) (port : UInt16) :
    addressNet (display (.cjdns ip port)) = OTHER := by
  have marked : hostText (.cjdns ip port) =
      "cjdns:".toList ++ '[' :: ((AddrText.ipv6 ip).toList ++ [']']) := rfl
  have last : (hostText (.cjdns ip port)).getLast? = some ']' := by
    rw [marked, List.getLast?_append_of_ne_nil _ (by simp)]
    exact List.getLast?_append_of_ne_nil ('[' :: (AddrText.ipv6 ip).toList) (by decide)
  have inner : (hostText (.cjdns ip port)).dropPrefix? ['['] = none := rfl
  have bracket : '[' ∈ (String.ofList (hostText (.cjdns ip port))).toList := by
    rw [String.toList_ofList, marked]
    simp
  have read : IpText.ipAddr (String.ofList (hostText (.cjdns ip port))) = none := by
    cases found : IpText.ipAddr (String.ofList (hostText (.cjdns ip port))) with
    | none => rfl
    | some other => exact absurd bracket (HostText.ipAddr_bracket _ other found)
  rw [addressNet_ip (by rw [last]; decide) (by rw [last]; decide), inner, read]
  rfl

/-- An address is read as it was written exactly when it is no CJDNS one. -/
theorem read_as_written_iff {a : PeerAddr} (canonical : a.Canonical) :
    (addressNet a.display = label a.net ∧ ∀ b : PeerAddr, b.Canonical →
      (host a.display = host b.display ↔ ∃ port, b = a.withPort port)) ↔ a.net ≠ .cjdns := by
  have hosts (b : PeerAddr) (canonical' : b.Canonical) :
      host a.display = host b.display ↔ ∃ port, b = a.withPort port := by
    rw [host_display, host_display, String.ofList_inj,
      hostText_iff canonical canonical']
  rw [and_iff_left hosts]
  cases a with
  | ipv4 ip port => simp [addressNet_ipv4, net, label]
  | ipv6 ip port => simp [addressNet_ipv6 canonical.2, net, label]
  | torV3 key port => simp [addressNet_torV3, net, label]
  | i2p hash port => simp [addressNet_i2p, net, label]
  | cjdns ip port => simp [addressNet_cjdns, net, label, OTHER]

end Labels

/-! ## Two addresses -/

namespace CjdnsPeer

theorem readGroups_ipv6 (ip : Bytes 16) :
    PlainText.readBytes 16 (PlainText.readGroups ((PlainText.ipv6 ip).splitOn ':')) = some ip := by
  have read := PlainText.readIp_ipv6 ip
  unfold PlainText.readIp at read
  simp only [List.cons_append, List.dropLast_concat] at read
  obtain ⟨same, found, eq⟩ := Option.map_eq_some_iff.mp read
  cases eq
  exact found

/-- The plain text forms, as far as a label looks at them. -/
@[reducible] def text : HostText where
  toIpReads := plainReads
  ipv6Addr text := PlainText.readBytes 16 (PlainText.readGroups (text.toList.splitOn ':'))
  ipv6Addr_ipv6 ip := by
    have spelled : (plainText.ipv6 ip).toList = PlainText.ipv6 ip := String.toList_ofList
    rw [spelled, readGroups_ipv6]
  ipAddr_bracket text ip read := by
    intro bracket
    have rejected : PlainText.readBare text.toList = none := if_pos bracket
    exact absurd (rejected.symm.trans read) (by simp)

def plain : PeerAddr := .ipv4 ⟨[14, 5, 6, 7], rfl⟩ 8333

def meshed : PeerAddr := .cjdns ⟨0xfc :: List.replicate 15 1, rfl⟩ 8333

end CjdnsPeer

open CjdnsPeer in
theorem read_as_written_plain :
    letI := text
    (addressNet plain.display = label plain.net ∧ ∀ b : PeerAddr, b.Canonical →
      (host plain.display = host b.display ↔ ∃ port, b = plain.withPort port)) ↔
        plain.net ≠ .cjdns :=
  @read_as_written_iff text plain trivial

open CjdnsPeer in
theorem cjdns_unread :
    ¬∀ (_ : HostText) (a : PeerAddr), a.Canonical →
      addressNet a.display = label a.net ∧ ∀ b : PeerAddr, b.Canonical →
        (host a.display = host b.display ↔ ∃ port, b = a.withPort port) := by
  intro claim
  have read := (claim text meshed trivial).1
  rw [meshed, @addressNet_cjdns text] at read
  exact absurd read (by decide)

end PeerAddr

end P2PObserver
