import P2PObserver.Addresses.Text

/-! # What is printed parses back

Every printed address is a host, a colon and the port's digits, with nothing in it that
lowering changes. The parser is followed from there, one network after the other.
-/

namespace P2PObserver

open Regroup

/-! ## Ports -/

theorem parsePort_toDigits (port : UInt16) : parsePort (Nat.toDigits 10 port.toNat) = some port := by
  rw [parsePort, parseUnsigned_toDigits port.toNat_lt, Option.map_some]
  exact congrArg some UInt16.ofNat_toNat

theorem rsplitOnce_none {sep : Char} {s : List Char} (absent : sep ∉ s) :
    rsplitOnce sep s = none := by
  induction s with
  | nil => rfl
  | cons char rest ih =>
      rw [List.mem_cons, not_or] at absent
      rw [rsplitOnce, ih absent.2]
      exact if_neg (Ne.symm absent.1)

theorem rsplitOnce_append {sep : Char} {back : List Char} (absent : sep ∉ back)
    (front : List Char) : rsplitOnce sep (front ++ sep :: back) = some (front, back) := by
  induction front with
  | nil =>
      rw [List.nil_append, rsplitOnce, rsplitOnce_none absent]
      exact if_pos rfl
  | cons char rest ih => rw [List.cons_append, rsplitOnce, ih]

/-! ## Prefixes and suffixes -/

/-- A text that ends otherwise has no such suffix. -/
theorem not_isSuffixOf {text suffix : List Char} (filled : suffix ≠ [])
    (ends : text.getLast? ≠ suffix.getLast?) : ¬suffix.isSuffixOf text := by
  intro suffixed
  obtain ⟨name, rfl⟩ := List.isSuffixOf_iff_suffix.mp suffixed
  exact ends (List.getLast?_append_of_ne_nil _ filled)

theorem dropSuffix_append (name suffix : List Char) :
    (name ++ suffix).dropSuffix? suffix = some name := by
  rw [List.dropSuffix?_eq_some_iff]
  exact ⟨suffix, rfl, BEq.rfl⟩

theorem eq_of_dropSuffix {host name suffix : List Char}
    (found : host.dropSuffix? suffix = some name) : host = name ++ suffix := by
  obtain ⟨suffix', rfl, same⟩ := List.dropSuffix?_eq_some_iff.mp found
  rw [eq_of_beq same]

/-- A text that ends otherwise has no such suffix. -/
theorem dropSuffix_none {host suffix : List Char} (filled : suffix ≠ [])
    (ends : host.getLast? ≠ suffix.getLast?) : host.dropSuffix? suffix = none := by
  cases found : host.dropSuffix? suffix with
  | none => rfl
  | some name =>
      rw [eq_of_dropSuffix found, List.getLast?_append_of_ne_nil _ filled] at ends
      exact absurd rfl ends

theorem dropPrefix_none {host : List Char} (back : List Char) (absent : ':' ∉ host)
    (other : host ≠ "cjdns".toList) :
    (host ++ ':' :: back).dropPrefix? "cjdns:".toList = none := by
  cases found : (host ++ ':' :: back).dropPrefix? "cjdns:".toList with
  | none => rfl
  | some rest =>
      obtain ⟨front, whole, same⟩ := List.dropPrefix?_eq_some_iff.mp found
      rw [eq_of_beq same] at whole
      have split : "cjdns".toList ++ ':' :: rest = host ++ ':' :: back := whole.symm
      have front : ':' ∉ "cjdns".toList := by decide
      rcases List.append_eq_append_iff.mp split with ⟨more, rfl, rest'⟩ | ⟨more, shorter, rest'⟩
      · cases more with
        | nil => exact absurd (List.append_nil _) other
        | cons char more =>
            rw [List.cons_append, List.cons.injEq] at rest'
            exact absurd (by simp [← rest'.1]) absent
      · cases more with
        | nil => exact absurd (by simpa using shorter.symm) other
        | cons char more =>
            rw [List.cons_append, List.cons.injEq] at rest'
            exact absurd (by rw [shorter]; simp [← rest'.1]) front

section Onion

variable [AddrText]

def onionBytes (key : Bytes 32) : List UInt8 :=
  key.val ++ (AddrText.sha3_256 (".onion checksum".toUTF8.toList ++ key.val ++ [3])).val.take 2 ++ [3]

theorem onionHost_toList (key : Bytes 32) :
    (onionHost key).toList = (base32Encode (onionBytes key)).toList ++ ".onion".toList :=
  String.toList_append

theorem onionBytes_length (key : Bytes 32) : (onionBytes key).length = 35 := by
  rw [onionBytes, List.length_append, List.length_append, List.length_take, key.property,
    (AddrText.sha3_256 _).property]
  rfl

theorem onionBytes_take (key : Bytes 32) : (onionBytes key).take 32 = key.val := by
  rw [onionBytes, List.append_assoc]
  exact List.take_left' key.property

theorem onionKey_host (key : Bytes 32) : onionKey (onionHost key).toList = some key := by
  have name : (onionHost key).toList.dropSuffix? ".onion".toList =
      some (base32Encode (onionBytes key)).toList := by
    rw [onionHost_toList, dropSuffix_append]
  unfold onionKey
  simp only [name, base32Decode_encode, onionBytes_length, onionBytes_take, dite_true, if_true]

/-- No other host names the key. -/
theorem onionHost_key {host : List Char} {key : Bytes 32} (named : onionKey host = some key) :
    (onionHost key).toList = host := by
  unfold onionKey at named
  split at named
  · cases named
  · split at named
    · cases named
    · split at named
      · simp only at named
        split at named
        · rename_i same
          obtain rfl := Option.some.inj named
          exact same
        · cases named
      · cases named

end Onion

theorem i2pHash_encode (hash : Bytes 32) :
    i2pHash (base32Encode hash.val).toList = some hash := by
  unfold i2pHash
  simp only [base32Decode_encode, hash.property, dite_true]

theorem base32Encode_hash {b32 : List Char} {hash : Bytes 32} (named : i2pHash b32 = some hash) :
    (base32Encode hash.val).toList = b32 := by
  unfold i2pHash at named
  split at named
  · cases named
  · rename_i bytes decoded
    split at named
    · rename_i long
      obtain rfl := Option.some.inj named
      obtain ⟨least, most, encoded⟩ := base32Encode_decode decoded
      exact encoded (by omega)
    · cases named

/-! ## Printed text -/

theorem digitChar_spec {digit : Nat} (small : digit < 32) :
    digitChar digit ≠ ':' ∧ (digitChar digit).toLower = digitChar digit := by
  have all : ∀ i : Fin 32, digitChar i.val ≠ ':' ∧ (digitChar i.val).toLower = digitChar i.val := by
    decide +kernel
  exact all ⟨digit, small⟩

theorem base32Encode_chars (bytes : List UInt8) : ∀ char ∈ (base32Encode bytes).toList,
    char ≠ ':' ∧ char.toLower = char := by
  intro char listed
  obtain ⟨digit, small, rfl⟩ := base32Encode_digits bytes char listed
  exact digitChar_spec small

theorem digit_lower {char : Char} (digit : char.isDigit) : char ≠ ':' ∧ char.toLower = char := by
  have all : ∀ i : Fin 58, Char.ofNat i.val ≠ ':' ∧ (Char.ofNat i.val).toLower = Char.ofNat i.val := by
    decide +kernel
  have last : char.toNat ≤ '9'.toNat := (Char.isDigit_iff_toNat.mp digit).2
  have this := all ⟨char.toNat, Nat.lt_of_le_of_lt last (by decide)⟩
  rw [Char.ofNat_toNat] at this
  exact this

theorem toDigits_chars (n : Nat) : ∀ char ∈ Nat.toDigits 10 n, char ≠ ':' ∧ char.toLower = char :=
  fun _ listed =>
    digit_lower (Nat.isDigit_of_mem_toDigits (by decide) (by decide) listed)

theorem map_toLower {s : List Char} (lower : ∀ char ∈ s, char.toLower = char) :
    s.map Char.toLower = s :=
  (List.map_congr_left lower).trans (List.map_id s)

namespace PeerAddr

variable [SocketText]

/-- The text before the last colon. -/
def hostText : PeerAddr → List Char
  | .ipv4 ip _ => (AddrText.ipv4 ip).toList
  | .ipv6 ip _ => '[' :: (AddrText.ipv6 ip).toList ++ [']']
  | .torV3 key _ => (onionHost key).toList
  | .i2p hash _ => (base32Encode hash.val).toList ++ ".b32.i2p".toList
  | .cjdns ip _ => "cjdns:".toList ++ ('[' :: (AddrText.ipv6 ip).toList ++ [']'])

omit [SocketText] in
/-- The colon and the port, behind a host. -/
theorem host_port {host : String} {chars : List Char} (spelled : host.toList = chars)
    (port : UInt16) :
    (host ++ ":" ++ toString port.toNat).toList = chars ++ ':' :: Nat.toDigits 10 port.toNat := by
  have colon : ":".toList = [':'] := rfl
  rw [String.toList_append, String.toList_append, spelled, colon,
    Nat.toString_eq_ofList_toDigits, String.toList_ofList, List.append_assoc, List.singleton_append]

theorem display_toList (a : PeerAddr) :
    a.display.toList = a.hostText ++ ':' :: Nat.toDigits 10 a.port.toNat := by
  cases a with
  | ipv4 ip port => exact host_port rfl port
  | ipv6 ip port => exact host_port (by rw [String.toList_append, String.toList_append]; rfl) port
  | torV3 key port => exact host_port rfl port
  | i2p hash port => exact host_port (by rw [String.toList_append]; rfl) port
  | cjdns ip port => exact host_port (by rw [String.toList_append, String.toList_append]; rfl) port

theorem hostText_lower (a : PeerAddr) : a.hostText.map Char.toLower = a.hostText := by
  have bracketed (ip : Bytes 16) : ('[' :: (AddrText.ipv6 ip).toList ++ [']']).map Char.toLower =
      '[' :: (AddrText.ipv6 ip).toList ++ [']'] := by
    rw [List.cons_append, List.map_cons, List.map_append, map_toLower (SocketText.ipv6_chars ip)]
    rfl
  have base32 (bytes : List UInt8) := map_toLower fun char listed =>
    (base32Encode_chars bytes char listed).2
  cases a with
  | ipv4 ip port =>
      apply map_toLower
      intro char listed
      rcases SocketText.ipv4_chars ip char listed with digit | rfl
      · exact (digit_lower digit).2
      · decide
  | ipv6 ip port => exact bracketed ip
  | torV3 key port =>
      have suffix : ".onion".toList.map Char.toLower = ".onion".toList := rfl
      have lowered := List.map_append.trans
        (congrArg₂ (· ++ ·) (base32 (onionBytes key)) suffix)
      calc (onionHost key).toList.map Char.toLower
          = ((base32Encode (onionBytes key)).toList ++ ".onion".toList).map Char.toLower :=
            congrArg _ (onionHost_toList key)
        _ = (base32Encode (onionBytes key)).toList ++ ".onion".toList := lowered
        _ = (onionHost key).toList := (onionHost_toList key).symm
  | i2p hash port =>
      have suffix : ".b32.i2p".toList.map Char.toLower = ".b32.i2p".toList := rfl
      exact List.map_append.trans (congrArg₂ (· ++ ·) (base32 _) suffix)
  | cjdns ip port =>
      have start : "cjdns:".toList.map Char.toLower = "cjdns:".toList := rfl
      exact List.map_append.trans (congrArg₂ (· ++ ·) start (bracketed ip))

theorem display_lower (a : PeerAddr) : a.display.toList.map Char.toLower = a.display.toList := by
  have digits := map_toLower fun char listed => (toDigits_chars a.port.toNat char listed).2
  rw [display_toList, List.map_append, List.map_cons, hostText_lower, digits]
  rfl

/-! ## The parser on printed text -/

/-- A host and a port, where the whole is no CJDNS address. -/
theorem parseLower_host {host : List Char} {port : UInt16}
    (plain : (host ++ ':' :: Nat.toDigits 10 port.toNat).dropPrefix? "cjdns:".toList = none) :
    parseLower (host ++ ':' :: Nat.toDigits 10 port.toNat) =
      parseHost (host ++ ':' :: Nat.toDigits 10 port.toNat) host port := by
  have no_colon : ':' ∉ Nat.toDigits 10 port.toNat := fun listed =>
    (toDigits_chars _ ':' listed).1 rfl
  unfold parseLower
  simp only [plain, rsplitOnce_append no_colon host, parsePort_toDigits]

/-- A host that ends like neither of the two is part of a socket address. -/
theorem parseLower_socket {host : List Char} {port : UInt16}
    (plain : (host ++ ':' :: Nat.toDigits 10 port.toNat).dropPrefix? "cjdns:".toList = none)
    (not_i2p : host.getLast? ≠ some 'p') (not_onion : host.getLast? ≠ some 'n') :
    parseLower (host ++ ':' :: Nat.toDigits 10 port.toNat) =
      parseSocket (host ++ ':' :: Nat.toDigits 10 port.toNat) := by
  have no_i2p : host.dropSuffix? ".b32.i2p".toList = none := dropSuffix_none (by decide) not_i2p
  have no_onion : ¬ ".onion".toList.isSuffixOf host := not_isSuffixOf (by decide) not_onion
  rw [parseLower_host plain, parseHost, no_i2p]
  exact if_neg no_onion

/-- Printed text that is a socket address. -/
theorem parseSocket_display {a : PeerAddr} {sa : SocketAddr}
    (read : SocketText.socketAddr a.display = some sa) :
    parseSocket (a.hostText ++ ':' :: Nat.toDigits 10 a.port.toNat) = some (fromSocketAddr sa) := by
  rw [parseSocket, ← display_toList, String.ofList_toList, read, Option.map_some]

theorem parse_ipv4 (ip : Bytes 4) (port : UInt16) :
    parseLower (display (.ipv4 ip port)).toList = some (.ipv4 ip port) := by
  have chars := SocketText.ipv4_chars ip
  have last {char : Char} (figure : ¬ (char.isDigit ∨ char = '.')) :
      (AddrText.ipv4 ip).toList.getLast? ≠ some char := by
    intro ends
    exact figure (chars char (List.mem_of_getLast? ends))
  have absent : ':' ∉ (AddrText.ipv4 ip).toList := fun listed =>
    absurd (chars ':' listed) (by decide)
  have other : (AddrText.ipv4 ip).toList ≠ "cjdns".toList := by
    intro same
    exact absurd (chars 'c' (by rw [same]; decide)) (by decide)
  have plain := dropPrefix_none (Nat.toDigits 10 port.toNat) absent other
  have socket := parseSocket_display (a := .ipv4 ip port) (SocketText.socketAddr_v4 ip port)
  rw [display_toList]
  exact (parseLower_socket plain (last (by decide)) (last (by decide))).trans socket

theorem parse_ipv6 {ip : Bytes 16} (mapped : toIpv4Mapped ip = none) (other : ip.at 0 ≠ 0xfc)
    (port : UInt16) : parseLower (display (.ipv6 ip port)).toList = some (.ipv6 ip port) := by
  have plain : (hostText (.ipv6 ip port) ++ ':' :: Nat.toDigits 10 port.toNat).dropPrefix?
      "cjdns:".toList = none := rfl
  have last : (hostText (.ipv6 ip port)).getLast? = some ']' :=
    List.getLast?_append_of_ne_nil _ (by decide)
  have socket := parseSocket_display (a := .ipv6 ip port) (SocketText.socketAddr_v6 ip port)
  have same : fromSocketAddr ⟨.v6 ip, port⟩ = .ipv6 ip port := by
    simp only [fromSocketAddr, mapped, if_neg other]
  rw [same] at socket
  rw [display_toList]
  exact (parseLower_socket plain (by rw [last]; decide) (by rw [last]; decide)).trans socket

theorem parse_cjdns (ip : Bytes 16) (port : UInt16) :
    parseLower (display (.cjdns ip port)).toList = some (.cjdns ip port) := by
  have rest : (display (.cjdns ip port)).toList =
      "cjdns:".toList ++ (display (.ipv6 ip port)).toList := by
    rw [display_toList, display_toList]
    rfl
  have begins : (display (.cjdns ip port)).toList.dropPrefix? "cjdns:".toList =
      some (display (.ipv6 ip port)).toList := by
    rw [rest, List.dropPrefix?_eq_some_iff]
    exact ⟨_, rfl, BEq.rfl⟩
  have read : SocketText.socketAddr (display (.ipv6 ip port)) = some ⟨.v6 ip, port⟩ :=
    SocketText.socketAddr_v6 ip port
  unfold parseLower
  simp only [begins, String.ofList_toList, read]

theorem parse_torV3 (key : Bytes 32) (port : UInt16) :
    parseLower (display (.torV3 key port)).toList = some (.torV3 key port) := by
  have absent : ':' ∉ (onionHost key).toList := by
    rw [onionHost_toList]
    intro listed
    cases List.mem_append.mp listed with
    | inl listed => exact (base32Encode_chars _ ':' listed).1 rfl
    | inr listed => exact absurd listed (by decide)
  have last : (onionHost key).toList.getLast? = some 'n' := by
    rw [onionHost_toList]
    exact List.getLast?_append_of_ne_nil _ (by decide)
  have other : (onionHost key).toList ≠ "cjdns".toList := by
    intro same
    rw [same] at last
    exact absurd last (by decide)
  have ends : ".onion".toList.isSuffixOf (onionHost key).toList := by
    rw [onionHost_toList]
    exact List.isSuffixOf_iff_suffix.mpr (List.suffix_append ..)
  have not_i2p : (onionHost key).toList.dropSuffix? ".b32.i2p".toList = none :=
    dropSuffix_none (by decide) (by rw [last]; decide)
  have whole : parseLower (display (.torV3 key port)).toList =
      parseHost (display (.torV3 key port)).toList (onionHost key).toList port := by
    rw [display_toList]
    exact parseLower_host (dropPrefix_none _ absent other)
  rw [whole, parseHost, not_i2p]
  apply (if_pos ends).trans
  rw [onionKey_host, Option.map_some]

theorem parse_i2p (hash : Bytes 32) (port : UInt16) :
    parseLower (display (.i2p hash port)).toList = some (.i2p hash port) := by
  have absent : ':' ∉ hostText (.i2p hash port) := by
    intro listed
    cases List.mem_append.mp listed with
    | inl listed => exact (base32Encode_chars _ ':' listed).1 rfl
    | inr listed => exact absurd listed (by decide)
  have last : (hostText (.i2p hash port)).getLast? = some 'p' :=
    List.getLast?_append_of_ne_nil _ (by decide)
  have other : hostText (.i2p hash port) ≠ "cjdns".toList := by
    intro same
    rw [same] at last
    exact absurd last (by decide)
  have name : (hostText (.i2p hash port)).dropSuffix? ".b32.i2p".toList =
      some (base32Encode hash.val).toList := dropSuffix_append ..
  have whole : parseLower (display (.i2p hash port)).toList =
      parseHost (display (.i2p hash port)).toList (hostText (.i2p hash port)) port := by
    rw [display_toList]
    exact parseLower_host (dropPrefix_none _ absent other)
  rw [whole, parseHost, name]
  simp only [i2pHash_encode, Option.map_some]

theorem parseLower_display {a : PeerAddr} (canonical : a.Canonical) :
    parseLower a.display.toList = some a := by
  cases a with
  | ipv4 ip port => exact parse_ipv4 ip port
  | ipv6 ip port => exact parse_ipv6 canonical.1 canonical.2 port
  | torV3 key port => exact parse_torV3 key port
  | i2p hash port => exact parse_i2p hash port
  | cjdns ip port => exact parse_cjdns ip port

/-- Printed text parses back, in whatever case its letters are. -/
theorem parse_display {a : PeerAddr} (canonical : a.Canonical) {text : String}
    (same : text.toList.map Char.toLower = a.display.toList.map Char.toLower) :
    parse text = some a := by
  rw [parse, same, display_lower, parseLower_display canonical]

/-! ## No other host -/

/-- The text before the last colon, lowered. -/
def hostPart (s : String) : Option (List Char) :=
  (rsplitOnce ':' (s.toList.map Char.toLower)).map (·.1)

/-- What a socket address comes to is no onion service and no I2P destination. -/
theorem parseSocket_ip {lower : List Char} {a : PeerAddr} (read : parseSocket lower = some a) :
    a.ip.isSome := by
  obtain ⟨⟨ip, port⟩, -, rfl⟩ := Option.map_eq_some_iff.mp read
  unfold fromSocketAddr
  cases ip with
  | v4 ip => rfl
  | v6 ip =>
      simp only
      split
      · rfl
      · split <;> rfl

/-- An address that is no IP comes from the host it is named by. -/
theorem parse_host {text : String} {a : PeerAddr} (read : parse text = some a)
    (named : a.ip = none) :
    ∃ lower host port, hostPart text = some host ∧ parseHost lower host port = some a := by
  have socket {lower : List Char} : parseSocket lower ≠ some a := by
    intro read
    have ip := parseSocket_ip read
    rw [named] at ip
    cases ip
  unfold parse parseLower at read
  unfold hostPart
  split at read
  · split at read
    · obtain rfl := Option.some.inj read
      cases named
    · cases read
  · split at read
    · exact absurd read socket
    · rename_i host port parts
      split at read
      · exact absurd read socket
      · rename_i number _
        exact ⟨_, host, number, by rw [parts]; rfl, read⟩

theorem hostPart_torV3 {text : String} {key : Bytes 32} {port : UInt16}
    (read : parse text = some (.torV3 key port)) :
    hostPart text = some (onionHost key).toList := by
  obtain ⟨lower, host, number, part, read⟩ := parse_host read rfl
  unfold parseHost at read
  split at read
  · obtain ⟨hash, _, other⟩ := Option.map_eq_some_iff.mp read
    cases other
  · split at read
    · obtain ⟨key', named, same⟩ := Option.map_eq_some_iff.mp read
      cases same
      rw [part, onionHost_key named]
    · have ip := parseSocket_ip read
      cases ip

theorem hostPart_i2p {text : String} {hash : Bytes 32} {port : UInt16}
    (read : parse text = some (.i2p hash port)) :
    hostPart text = some ((base32Encode hash.val).toList ++ ".b32.i2p".toList) := by
  obtain ⟨lower, host, number, part, read⟩ := parse_host read rfl
  unfold parseHost at read
  split at read
  · rename_i b32 name
    obtain ⟨hash', named, same⟩ := Option.map_eq_some_iff.mp read
    cases same
    rw [part, base32Encode_hash named, eq_of_dropSuffix name]
  · split at read
    · obtain ⟨key, _, other⟩ := Option.map_eq_some_iff.mp read
      cases other
    · have ip := parseSocket_ip read
      cases ip

/-- One text for an address and one address for a text, over every network. -/
theorem parse_display_one_to_one {Address : Type} (socketAddr : Address → Option SocketAddr) :
    (∀ a : PeerAddr, a.Canonical → ∀ text : String,
        text.toList.map Char.toLower = a.display.toList.map Char.toLower → parse text = some a) ∧
      (∀ a b : PeerAddr, a.Canonical → b.Canonical → a.display = b.display → a = b) ∧
      (∀ sa, (fromSocketAddr sa).Canonical) ∧
      (∀ msg a, ofAddrV2 msg = some a → a.Canonical) ∧
      (∀ addr a, ofAddress socketAddr addr = some a → a.Canonical) ∧
      (∀ text key port, parse text = some (.torV3 key port) →
        hostPart text = some (onionHost key).toList) ∧
      (∀ text hash port, parse text = some (.i2p hash port) →
        hostPart text = some ((base32Encode hash.val).toList ++ ".b32.i2p".toList)) := by
  have injective : ∀ a b : PeerAddr, a.Canonical → b.Canonical → a.display = b.display → a = b := by
    intro a b canonical canonical' same
    have read := @parse_display _ a canonical a.display rfl
    have read' := @parse_display _ b canonical' a.display (by rw [same])
    exact Option.some.inj (read.symm.trans read')
  exact ⟨fun _ canonical _ same => parse_display canonical same, injective,
    fromSocketAddr_canonical, fun _ _ => ofAddrV2_canonical, fun _ _ => ofAddress_canonical,
    fun _ _ _ => hostPart_torV3, fun _ _ _ => hostPart_i2p⟩

end PeerAddr

end P2PObserver
