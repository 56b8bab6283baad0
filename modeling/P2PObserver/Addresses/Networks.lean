import P2PObserver.Addresses.Spellings

/-! # Networks and their prefixes

A network holds the addresses of its family that begin with the same bits. The masks are made by
shifts that stay within the word, and what a network prints is the network again.
-/

namespace P2PObserver

/-- The IP addresses of the standard library, which read back what they print. -/
class IpReads extends IpText where
  ipAddr_display : ∀ ip : IpAddr, ipAddr ip.display = some ip

/-- A bit of an address, the highest first. -/
def Bytes.bit {n : Nat} (bytes : Bytes n) (i : Nat) : Bool :=
  (bytes.at (i / 8)).toNat.testBit (7 - i % 8)

namespace IpAddr

/-- The families agree, and so do the first `len` bits. -/
def Agree (len : Nat) : IpAddr → IpAddr → Prop
  | .v4 x, .v4 y => ∀ i < len, x.bit i = y.bit i
  | .v6 x, .v6 y => ∀ i < len, x.bit i = y.bit i
  | _, _ => False

end IpAddr

namespace IpNet

/-- `!0 << shift` in a word, which overflows from the width of the word on. -/
def shlOnes (width shift : Nat) : Option Nat :=
  if shift < width then some ((2 ^ width - 1) <<< shift % 2 ^ width) else none

/-- The mask of a prefix, none where its shift overflows. -/
def mask (width prefixLen : Nat) : Option Nat :=
  let shift := width - prefixLen
  if width ≤ shift then some 0 else shlOnes width shift

def containsChecked (net : IpNet) (ip : IpAddr) : Option Bool :=
  match net.addr, ip with
  | .v4 addr, .v4 ip => (mask 32 net.prefixLen.toNat).map fun mask =>
      fromBytes addr &&& mask == fromBytes ip &&& mask
  | .v6 addr, .v6 ip => (mask 128 net.prefixLen.toNat).map fun mask =>
      fromBytes addr &&& mask == fromBytes ip &&& mask
  | _, _ => some false

/-! ## Masks -/

theorem mask_eq (width prefixLen : Nat) : mask width prefixLen =
    some (if width ≤ width - prefixLen then 0
      else (2 ^ width - 1) <<< (width - prefixLen) % 2 ^ width) := by
  simp only [mask, shlOnes]
  split
  · rfl
  · rename_i less
    exact if_pos (Nat.lt_of_not_le less)

/-- No shift overflows. -/
theorem containsChecked_eq (net : IpNet) (ip : IpAddr) :
    net.containsChecked ip = some (net.contains ip) := by
  obtain ⟨addr, len⟩ := net
  cases addr <;> cases ip <;> simp [containsChecked, contains, mask_eq, samePrefix]

theorem testBit_mask (width prefixLen j : Nat) :
    (if width ≤ width - prefixLen then 0
      else (2 ^ width - 1) <<< (width - prefixLen) % 2 ^ width).testBit j =
      (decide (j < width) && decide (width - prefixLen ≤ j)) := by
  split
  · rename_i all
    rw [Nat.zero_testBit]
    grind
  · rw [Nat.testBit_mod_two_pow, Nat.testBit_shiftLeft, Nat.testBit_two_pow_sub_one]
    grind

theorem testBit_bytes (bytes : List UInt8) : ∀ i < 8 * bytes.length,
    (bytes.foldl (fun acc (byte : UInt8) => acc * 256 + byte.toNat) 0).testBit
        (8 * bytes.length - 1 - i) =
      (bytes.getD (i / 8) 0).toNat.testBit (7 - i % 8) := by
  induction bytes using List.reverseRecOn with
  | nil => simp
  | append_singleton bytes last ih =>
      intro i within
      rw [List.length_append, List.length_singleton] at within ⊢
      rw [List.foldl_concat, Nat.mul_comm _ 256]
      have split := Nat.testBit_two_pow_mul_add
        (bytes.foldl (fun acc (byte : UInt8) => acc * 256 + byte.toNat) 0) (i := 8) last.toNat_lt
        (8 * (bytes.length + 1) - 1 - i)
      rw [split]
      by_cases early : i < 8 * bytes.length
      · have place : 8 * (bytes.length + 1) - 1 - i - 8 = 8 * bytes.length - 1 - i := by omega
        rw [if_neg (by omega), place, ih i early, List.getD_eq_getElem?_getD,
          List.getD_eq_getElem?_getD, List.getElem?_append_left (by omega)]
      · obtain ⟨k, rfl⟩ := Nat.exists_eq_add_of_le (Nat.le_of_not_lt early)
        have quotient : (8 * bytes.length + k) / 8 = bytes.length := by omega
        have remainder : (8 * bytes.length + k) % 8 = k := by omega
        have place : 8 * (bytes.length + 1) - 1 - (8 * bytes.length + k) = 7 - k := by omega
        rw [if_pos (by omega), quotient, remainder, place]
        simp

theorem testBit_fromBytes {n : Nat} (bytes : Bytes n) {i : Nat} (within : i < 8 * n) :
    (fromBytes bytes).testBit (8 * n - 1 - i) = bytes.bit i := by
  have length := bytes.property
  have spelled := testBit_bytes bytes.val i (by omega)
  rwa [length] at spelled

/-- The masked numbers agree exactly when the first bits do. -/
theorem samePrefix_iff {n : Nat} (prefixLen : Nat) (fits : prefixLen ≤ 8 * n) (net ip : Bytes n) :
    samePrefix (8 * n) prefixLen net ip = true ↔ ∀ i < prefixLen, net.bit i = ip.bit i := by
  rw [samePrefix, beq_iff_eq]
  constructor
  · intro same i inside
    have bits := congrArg (·.testBit (8 * n - 1 - i)) same
    simp only [Nat.testBit_and, testBit_mask, testBit_fromBytes _ (by omega : i < 8 * n)] at bits
    have masked : (decide (8 * n - 1 - i < 8 * n) && decide (8 * n - prefixLen ≤ 8 * n - 1 - i)) =
        true := by
      simp
      omega
    rwa [masked, Bool.and_true, Bool.and_true] at bits
  · intro same
    apply Nat.eq_of_testBit_eq
    intro j
    rw [Nat.testBit_and, Nat.testBit_and, testBit_mask]
    by_cases masked : j < 8 * n ∧ 8 * n - prefixLen ≤ j
    · have bit := same (8 * n - 1 - j) (by omega)
      have place : 8 * n - 1 - (8 * n - 1 - j) = j := by omega
      rw [← testBit_fromBytes net (by omega), ← testBit_fromBytes ip (by omega), place] at bit
      rw [bit]
    · grind

theorem contains_iff {net : IpNet} (fits : net.prefixLen ≤ net.addr.maxPrefix) (ip : IpAddr) :
    net.contains ip = true ↔ net.addr.Agree net.prefixLen.toNat ip := by
  have bound : net.prefixLen.toNat ≤ net.addr.maxPrefix.toNat := fits
  unfold contains IpAddr.Agree
  cases family : net.addr with
  | v4 x =>
      rw [family] at bound
      cases ip with
      | v4 y => exact samePrefix_iff (n := 4) _ bound x y
      | v6 y => simp
  | v6 x =>
      rw [family] at bound
      cases ip with
      | v4 y => simp
      | v6 y => exact samePrefix_iff (n := 16) _ bound x y

/-! ## Texts -/

variable [IpReads]

/-- `Display` of a network. -/
def display (net : IpNet) : String := net.addr.display ++ "/" ++ toString net.prefixLen.toNat

omit [IpReads] in
theorem parseU8_toDigits (len : UInt8) : parseU8 (Nat.toDigits 10 len.toNat) = some len := by
  rw [parseU8, parseUnsigned_toDigits len.toNat_lt, Option.map_some]
  exact congrArg some UInt8.ofNat_toNat

omit [IpReads] in
theorem splitOnce_append {sep : Char} {front : List Char} (absent : sep ∉ front)
    (back : List Char) : splitOnce sep (front ++ sep :: back) = some (front, back) := by
  induction front with
  | nil => exact if_pos rfl
  | cons char rest ih =>
      rw [List.mem_cons, not_or] at absent
      rw [List.cons_append, splitOnce, if_neg (Ne.symm absent.1), ih absent.2]
      rfl

/-- What is parsed has a prefix no longer than its address. -/
theorem prefixLen_of_fromStr {text : String} {net : IpNet} (read : fromStr text = .ok net) :
    net.prefixLen ≤ net.addr.maxPrefix := by
  unfold fromStr at read
  grind

/-- What a network prints is the network. -/
theorem fromStr_display {net : IpNet} (fits : net.prefixLen ≤ net.addr.maxPrefix) :
    fromStr net.display = .ok net := by
  have own := IpReads.ipAddr_display net.addr
  have slash : "/".toList = ['/'] := rfl
  have text : net.display.toList =
      net.addr.display.toList ++ '/' :: Nat.toDigits 10 net.prefixLen.toNat := by
    rw [display, String.toList_append, String.toList_append, slash,
      Nat.toString_eq_ofList_toDigits, String.toList_ofList, List.append_assoc,
      List.singleton_append]
  unfold fromStr
  rw [text, splitOnce_append (IpText.ipAddr_chars _ _ own)]
  dsimp only
  rw [String.ofList_toList, own]
  dsimp only [IpAddr.prefixLen]
  rw [parseU8_toDigits]
  exact if_neg (UInt8.not_lt.mpr fits)

/-- A parsed network holds what begins as it does, and prints what it is parsed from; a bare
    address is the network of that address alone. -/
theorem cidr_networks :
    (∀ text net, fromStr text = .ok net →
      (∀ ip, net.containsChecked ip = some (net.contains ip) ∧
        (net.contains ip = true ↔ net.addr.Agree net.prefixLen.toNat ip)) ∧
      fromStr net.display = .ok net) ∧
    ∀ text own, IpText.ipAddr text = some own →
      ∃ net, fromStr text = .ok net ∧ ∀ ip, net.contains ip = true ↔ ip = own := by
  constructor
  · intro text net read
    have fits := prefixLen_of_fromStr read
    exact ⟨fun ip => ⟨containsChecked_eq net ip, contains_iff fits ip⟩, fromStr_display fits⟩
  · intro text own read
    refine ⟨_, fromStr_bare read, fun ip => ?_⟩
    rw [contains_bare, eq_comm]

end IpNet

namespace PlainText

/-- Neither a slash nor a bracket. -/
theorem digitChar_plain {n : Nat} (small : n < 16) :
    Nat.digitChar n ≠ '/' ∧ Nat.digitChar n ≠ '[' := by
  have all : ∀ i : Fin 16, Nat.digitChar i.val ≠ '/' ∧ Nat.digitChar i.val ≠ '[' := by decide
  exact all ⟨n, small⟩

theorem ipv6_plain (ip : Bytes 16) : ∀ char ∈ ipv6 ip, char ≠ '/' ∧ char ≠ '[' := by
  apply intercalate_chars (P := fun char => char ≠ '/' ∧ char ≠ '[') (by decide)
  intro part listed char within
  obtain ⟨n, small, rfl⟩ := groups_digits ip.val part listed char within
  exact digitChar_plain small

theorem colon_mem_ipv6 (ip : Bytes 16) : ':' ∈ ipv6 ip := by
  obtain ⟨bytes, long⟩ := ip
  match bytes, long with
  | a :: b :: c :: d :: rest, _ => simp [ipv6, groups]
  | [], long | [_], long | [_, _], long | [_, _, _], long => simp at long

/-- Rejects what a bracket is in, as no IP address has one. -/
def readBare (text : List Char) : Option IpAddr := if '[' ∈ text then none else readAddr text

theorem readBare_ipv4 (x : Bytes 4) : readBare (ipv4 x) = some (.v4 x) := by
  have absent {char : Char} (other : ¬(char.isDigit ∨ char = '.')) : char ∉ ipv4 x :=
    fun listed => other (ipv4_chars x char listed)
  have read := readIp_ipv4 x
  unfold readIp at read
  split at read
  · rename_i rest begins
    exact absurd (begins ▸ List.mem_cons_self) (@absent '[' (by decide))
  · unfold readBare readAddr
    rwa [if_neg (absent (by decide)), if_neg (absent (by decide)), if_neg (absent (by decide))]

theorem readBare_ipv6 (x : Bytes 16) : readBare (ipv6 x) = some (.v6 x) := by
  have slash : '/' ∉ ipv6 x := fun listed => (ipv6_plain x '/' listed).1 rfl
  have bracket : '[' ∉ ipv6 x := fun listed => (ipv6_plain x '[' listed).2 rfl
  have read := readIp_ipv6 x
  unfold readIp at read
  simp only [List.cons_append, List.dropLast_concat] at read
  unfold readBare readAddr
  rwa [if_neg bracket, if_neg slash, if_pos (colon_mem_ipv6 x)]

theorem readBare_display (ip : IpAddr) :
    readBare (@IpAddr.display plainText.toAddrText ip).toList = some ip := by
  cases ip with
  | v4 x =>
      have text : (@IpAddr.display plainText.toAddrText (.v4 x)).toList = ipv4 x :=
        String.toList_ofList
      rw [text, readBare_ipv4]
  | v6 x =>
      have text : (@IpAddr.display plainText.toAddrText (.v6 x)).toList = ipv6 x :=
        String.toList_ofList
      rw [text, readBare_ipv6]

end PlainText

/-- The plain text forms, which read back what they print. -/
@[reducible] def plainReads : IpReads where
  toSocketText := plainText
  ipAddr text := PlainText.readBare text.toList
  ipAddr_chars text ip read := by
    unfold PlainText.readBare at read
    split at read
    · cases read
    · exact plainIp.ipAddr_chars text ip read
  ipAddr_display := PlainText.readBare_display

namespace Office

def first : Bytes 4 := ⟨[17, 6, 32, 0], rfl⟩

def host : Bytes 4 := ⟨[17, 6, 47, 9], rfl⟩

def net : IpNet := ⟨.v4 first, 20⟩

end Office

/-- A host is in the network, and its bare address is the network of it alone. -/
theorem IpNet.cidr_networks_plain :
    Office.net.contains (.v4 Office.host) = true ∧
      @fromStr plainReads.toIpText (@display plainReads Office.net) = .ok Office.net ∧
      ∃ net, @fromStr plainReads.toIpText "17.6.47.9" = .ok net ∧
        ∀ ip, net.contains ip = true ↔ ip = .v4 Office.host := by
  obtain ⟨networks, bare⟩ := @cidr_networks plainReads
  obtain ⟨holds, back⟩ := networks "17.6.32.0/20" Office.net (by decide +kernel)
  have agree : ∀ i < 20, Office.first.bit i = Office.host.bit i := by decide +kernel
  exact ⟨(holds (.v4 Office.host)).2.mpr agree, back,
    bare "17.6.47.9" (.v4 Office.host) (by decide +kernel)⟩

end P2PObserver
