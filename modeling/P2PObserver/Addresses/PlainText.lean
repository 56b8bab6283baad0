import P2PObserver.Addresses.ParseDisplay

/-! # Text forms that read back

What the parser relies on is what dotted decimals and colon-separated groups of hex digits
have. Runs of zero groups are written out.
-/

namespace P2PObserver

namespace PlainText

def decimal (byte : UInt8) : List Char := Nat.toDigits 10 byte.toNat

def readDecimal (s : List Char) : UInt8 := (Nat.ofDigitChars 10 s 0).toUInt8

theorem readDecimal_decimal (byte : UInt8) : readDecimal (decimal byte) = byte := by
  rw [readDecimal, decimal, Nat.ofDigitChars_ten_toDigits]
  exact UInt8.ofNat_toNat

theorem decimal_chars (byte : UInt8) : ∀ char ∈ decimal byte, char.isDigit := fun _ listed =>
  Nat.isDigit_of_mem_toDigits (by decide) (by decide) listed

/-- A group of an IPv6 address; groups of four zeros are written out. -/
def group (a b : UInt8) : List Char :=
  [a.toNat / 16, a.toNat % 16, b.toNat / 16, b.toNat % 16].map Nat.digitChar

def hexValue (char : Char) : Nat :=
  if char.isDigit then char.toNat - '0'.toNat else char.toNat - 'a'.toNat + 10

def readHex (high low : Char) : UInt8 := (hexValue high * 16 + hexValue low).toUInt8

theorem readHex_digits (byte : UInt8) :
    readHex (Nat.digitChar (byte.toNat / 16)) (Nat.digitChar (byte.toNat % 16)) = byte := by
  have all : ∀ i : Fin 256, readHex (Nat.digitChar (i.val / 16)) (Nat.digitChar (i.val % 16)) =
      .ofFin i := by decide +kernel
  exact all byte.toFin

theorem digitChar_chars {n : Nat} (small : n < 16) :
    Nat.digitChar n ≠ ':' ∧ (Nat.digitChar n).toLower = Nat.digitChar n := by
  have all : ∀ i : Fin 16,
      Nat.digitChar i.val ≠ ':' ∧ (Nat.digitChar i.val).toLower = Nat.digitChar i.val := by
    decide
  exact all ⟨n, small⟩

def groups : List UInt8 → List (List Char)
  | a :: b :: rest => group a b :: groups rest
  | _ => []

def readGroups : List (List Char) → List UInt8
  | [p, q, r, s] :: rest => readHex p q :: readHex r s :: readGroups rest
  | _ => []

theorem readGroups_groups (n : Nat) : ∀ bytes : List UInt8, bytes.length = n + n →
    readGroups (groups bytes) = bytes := by
  induction n with
  | zero =>
      intro bytes length
      obtain rfl := List.length_eq_zero_iff.mp length
      rfl
  | succ n ih =>
      intro bytes length
      match bytes, length with
      | [], length => simp at length
      | [a], length =>
          rw [List.length_singleton] at length
          omega
      | a :: b :: rest, length =>
          have later := ih rest (by simp only [List.length_cons] at length; omega)
          simp only [groups, group, List.map_cons, List.map_nil, readGroups, readHex_digits, later]

theorem groups_digits (bytes : List UInt8) :
    ∀ part ∈ groups bytes, ∀ char ∈ part, ∃ n < 16, char = Nat.digitChar n := by
  induction bytes using groups.induct with
  | case1 a b rest ih =>
      intro part listed
      cases listed with
      | head =>
          intro char listed
          obtain ⟨n, digit, rfl⟩ := List.mem_map.mp listed
          have small : ∀ n ∈ [a.toNat / 16, a.toNat % 16, b.toNat / 16, b.toNat % 16], n < 16 := by
            have := a.toNat_lt
            have := b.toNat_lt
            simp only [List.forall_mem_cons]
            simp
            omega
          exact ⟨n, small n digit, rfl⟩
      | tail _ later => exact ih part later
  | case2 bytes other =>
      intro part listed
      rw [groups] at listed
      · cases listed
      · exact other

theorem groups_chars (bytes : List UInt8) :
    ∀ part ∈ groups bytes, ∀ char ∈ part, char ≠ ':' ∧ char.toLower = char := by
  intro part listed char within
  obtain ⟨n, small, rfl⟩ := groups_digits bytes part listed char within
  exact digitChar_chars small

theorem intercalate_chars {P : Char → Prop} {sep : Char} (of_sep : P sep)
    {parts : List (List Char)} (of_parts : ∀ part ∈ parts, ∀ char ∈ part, P char) :
    ∀ char ∈ [sep].intercalate parts, P char := by
  induction parts with
  | nil => simp
  | cons part rest ih =>
      obtain ⟨of_part, of_rest⟩ := List.forall_mem_cons.mp of_parts
      cases rest with
      | nil =>
          rw [List.intercalate_singleton]
          exact of_part
      | cons next rest =>
          rw [List.intercalate_cons_cons]
          intro char listed
          rcases List.mem_append.mp listed with listed | listed
          · rcases List.mem_append.mp listed with listed | listed
            · exact of_part char listed
            · obtain rfl := List.mem_singleton.mp listed
              exact of_sep
          · exact ih of_rest char listed

def ipv4 (ip : Bytes 4) : List Char := ['.'].intercalate (ip.val.map decimal)

def ipv6 (ip : Bytes 16) : List Char := [':'].intercalate (groups ip.val)

def readBytes (n : Nat) (bytes : List UInt8) : Option (Bytes n) :=
  if h : bytes.length = n then some ⟨bytes, h⟩ else none

def readIp (host : List Char) : Option IpAddr :=
  match host with
  | '[' :: rest => (readBytes 16 (readGroups (rest.dropLast.splitOn ':'))).map .v6
  | host => (readBytes 4 ((host.splitOn '.').map readDecimal)).map .v4

def socketAddr (s : String) : Option SocketAddr :=
  match rsplitOnce ':' s.toList with
  | none => none
  | some (host, port) =>
      match readIp host, parsePort port with
      | some ip, some port => some ⟨ip, port⟩
      | _, _ => none

theorem ipv4_chars (ip : Bytes 4) : ∀ char ∈ ipv4 ip, char.isDigit ∨ char = '.' := by
  apply intercalate_chars (P := fun char => char.isDigit ∨ char = '.') (.inr rfl)
  intro part listed char
  obtain ⟨byte, -, rfl⟩ := List.mem_map.mp listed
  exact fun listed => .inl (decimal_chars byte char listed)

theorem ipv6_chars (ip : Bytes 16) : ∀ char ∈ ipv6 ip, char.toLower = char := by
  apply intercalate_chars (P := fun char => char.toLower = char) (by decide)
  intro part listed char within
  exact (groups_chars ip.val part listed char within).2

theorem readIp_ipv4 (ip : Bytes 4) : readIp (ipv4 ip) = some (.v4 ip) := by
  have fields : (ipv4 ip).splitOn '.' = ip.val.map decimal := by
    apply List.splitOn_intercalate
    · intro part listed
      obtain ⟨byte, -, rfl⟩ := List.mem_map.mp listed
      exact fun listed => absurd (decimal_chars byte '.' listed) (by decide)
    · have length := ip.property
      intro empty
      rw [List.map_eq_nil_iff.mp empty] at length
      cases length
  have back : (ip.val.map decimal).map readDecimal = ip.val := by
    rw [List.map_map]
    exact (List.map_congr_left fun byte _ => readDecimal_decimal byte).trans (List.map_id _)
  unfold readIp
  split
  · rename_i rest begins
    exact absurd (ipv4_chars ip '[' (by rw [begins]; exact List.mem_cons_self)) (by decide)
  · rw [fields, back, readBytes, dif_pos ip.property]
    rfl

theorem readIp_ipv6 (ip : Bytes 16) : readIp ('[' :: ipv6 ip ++ [']']) = some (.v6 ip) := by
  have fields : (ipv6 ip).splitOn ':' = groups ip.val := by
    apply List.splitOn_intercalate
    · intro part listed within
      exact (groups_chars ip.val part listed ':' within).1 rfl
    · have back := readGroups_groups 8 ip.val ip.property
      intro empty
      rw [empty] at back
      have length := ip.property
      rw [← back] at length
      cases length
  unfold readIp
  simp only [List.cons_append, List.dropLast_concat, fields, readGroups_groups 8 ip.val ip.property,
    readBytes, dif_pos ip.property]
  rfl

theorem socketAddr_host {host : String} {chars : List Char} {ip : IpAddr}
    (spelled : host.toList = chars) (read : readIp chars = some ip) (port : UInt16) :
    socketAddr (host ++ ":" ++ toString port.toNat) = some ⟨ip, port⟩ := by
  have no_colon : ':' ∉ Nat.toDigits 10 port.toNat := fun listed =>
    (toDigits_chars _ ':' listed).1 rfl
  unfold socketAddr
  rw [PeerAddr.host_port spelled port, rsplitOnce_append no_colon chars]
  simp only [read, parsePort_toDigits]

end PlainText

/-- Text forms that satisfy what the parser relies on, for a hash that is all zeros. -/
@[reducible] def plainText : SocketText where
  ipv4 ip := String.ofList (PlainText.ipv4 ip)
  ipv6 ip := String.ofList (PlainText.ipv6 ip)
  sha3_256 _ := ⟨List.replicate 32 0, rfl⟩
  socketAddr := PlainText.socketAddr
  ipv4_chars ip char listed := by
    rw [String.toList_ofList] at listed
    exact PlainText.ipv4_chars ip char listed
  ipv6_chars ip char listed := by
    rw [String.toList_ofList] at listed
    exact PlainText.ipv6_chars ip char listed
  socketAddr_v4 ip port :=
    PlainText.socketAddr_host String.toList_ofList (PlainText.readIp_ipv4 ip) port
  socketAddr_v6 ip port := by
    apply PlainText.socketAddr_host _ (PlainText.readIp_ipv6 ip) port
    simp [String.toList_append, String.toList_ofList]

namespace Shouted

def key : Bytes 32 := ⟨List.replicate 32 17, rfl⟩

def addr : PeerAddr := .torV3 key 8333

/-- The address in capitals. -/
def text : String := .ofList ((@PeerAddr.display plainText.toAddrText addr).toList.map Char.toUpper)

end Shouted

/-- It is read as the address, and its host is the one a service has. -/
theorem PeerAddr.parse_display_one_to_one_plain :
    @parse plainText Shouted.text = some Shouted.addr ∧
      hostPart Shouted.text = some (@onionHost plainText.toAddrText Shouted.key).toList := by
  obtain ⟨reads, -, -, -, -, host, -⟩ :=
    @parse_display_one_to_one plainText SocketAddr some
  have parsed := reads Shouted.addr trivial Shouted.text (by decide +kernel)
  exact ⟨parsed, host _ _ _ parsed⟩

end P2PObserver
