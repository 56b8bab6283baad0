import Mathlib.Data.String.Basic
import P2PObserver.Addresses.Ceiling
import P2PObserver.Archive.RoundTrip
import P2PObserver.HeaderTree.Networks
import P2PObserver.Lib.Protobuf
import P2PObserver.Protocol.GossipRate
import P2PObserver.Protocol.Lenient
import P2PObserver.Transport.V1Reader

/-! # An announcement fits a record

An address is several times longer as text than on the wire, and a message may hold nothing but
addresses. What an entry of either message becomes is weighed against the bytes it took.
-/

namespace P2PObserver

open Program

/-! ## How long an address is as text -/

/-- The longest texts of the standard library's addresses: `255.255.255.255`, and eight groups of
    four digits. -/
structure AddrText.Bounded [AddrText] : Prop where
  ipv4 : ∀ ip, (AddrText.ipv4 ip).utf8ByteSize ≤ 15
  ipv6 : ∀ ip, (AddrText.ipv6 ip).utf8ByteSize ≤ 39

theorem utf8ByteSize_le (s : String) : s.utf8ByteSize ≤ 4 * s.length := by
  rw [← String.ofList_toList (s := s), String.utf8ByteSize_ofList, String.length_ofList]
  induction s.toList with
  | nil => exact Nat.le_refl 0
  | cons char rest ih =>
      have size := char.utf8Size_le_four
      rw [String.utf8Len_cons, List.length_cons]
      omega

/-- A text of ASCII characters has a byte a character. -/
theorem utf8ByteSize_ascii {s : List Char} (ascii : ∀ char ∈ s, char.toNat ≤ 127) :
    (String.ofList s).utf8ByteSize = s.length := by
  rw [String.utf8ByteSize_ofList]
  induction s with
  | nil => rfl
  | cons char rest ih =>
      obtain ⟨first, later⟩ := List.forall_mem_cons.mp ascii
      have one : char.utf8Size = 1 := Char.utf8Size_eq_one_iff.mpr first
      rw [String.utf8Len_cons, ih later, List.length_cons, one]

theorem utf8ByteSize_decimal {n r : Nat} (positive : 0 < r) (small : n < 10 ^ r) :
    (toString n).utf8ByteSize ≤ r := by
  have digits : toString n = String.ofList (Nat.toDigits 10 n) := rfl
  have short : (Nat.toDigits 10 n).length ≤ r :=
    (Nat.length_toDigits_le_iff (by decide) positive).mpr small
  rw [digits, utf8ByteSize_ascii]
  · exact short
  · intro char listed
    have digit := Nat.isDigit_of_mem_toDigits (by decide) (by decide) listed
    simp only [Char.isDigit, Bool.and_eq_true, decide_eq_true_eq] at digit
    exact Nat.le_trans (UInt32.le_iff_toNat_le.mp digit.2) (by decide)

theorem utf8ByteSize_base32 (bytes : List UInt8) :
    (base32Encode bytes).utf8ByteSize ≤ (8 * bytes.length + 4) / 5 := by
  have small : ∀ digit ∈ bytes.map (·.toNat), digit < 2 ^ 8 := by
    intro digit listed
    obtain ⟨byte, -, rfl⟩ := List.mem_map.mp listed
    exact byte.toNat_lt
  obtain ⟨pad, pad_lt, packed_lt, -, length⟩ := Regroup.pack_spec (v := 5) (by decide) small
  have ascii : ∀ i : Fin 32, (digitChar i.val).toNat ≤ 127 := by decide
  rw [← String.ofList_toList (s := base32Encode bytes), base32Encode_toList, utf8ByteSize_ascii]
  · rw [List.length_map] at length ⊢
    omega
  · intro char listed
    obtain ⟨digit, packed, rfl⟩ := List.mem_map.mp listed
    exact ascii ⟨digit, packed_lt digit packed⟩

namespace PeerAddr

/-- The longest text an address of its network has. -/
def textSize : PeerAddr → Nat
  | .ipv4 .. => 21
  | .ipv6 .. => 47
  | .torV3 .. => 68
  | .i2p .. => 66
  | .cjdns .. => 53

theorem textSize_le (addr : PeerAddr) : addr.textSize ≤ 68 := by
  cases addr <;> simp [textSize]

theorem display_size [AddrText] (texts : AddrText.Bounded) (addr : PeerAddr) :
    addr.display.utf8ByteSize ≤ addr.textSize := by
  have size (host : String) : (host ++ ":" ++ toString addr.port.toNat).utf8ByteSize ≤
      host.utf8ByteSize + 6 := by
    have port := utf8ByteSize_decimal (r := 5) (by decide)
      (Nat.lt_trans addr.port.toNat_lt (by decide))
    have colon : ":".utf8ByteSize = 1 := rfl
    rw [String.utf8ByteSize_append, String.utf8ByteSize_append, colon]
    omega
  refine (size _).trans ?_
  cases addr with
  | ipv4 bytes port => exact Nat.add_le_add_right (texts.ipv4 bytes) 6
  | ipv6 bytes port =>
      have host := texts.ipv6 bytes
      have brackets : "[".utf8ByteSize = 1 ∧ "]".utf8ByteSize = 1 := ⟨rfl, rfl⟩
      simp only [String.utf8ByteSize_append, brackets, textSize]
      omega
  | cjdns bytes port =>
      have host := texts.ipv6 bytes
      have brackets : "cjdns:[".utf8ByteSize = 7 ∧ "]".utf8ByteSize = 1 := ⟨rfl, rfl⟩
      simp only [String.utf8ByteSize_append, brackets, textSize]
      omega
  | torV3 key port =>
      have host := utf8ByteSize_base32 (key.val ++
        (AddrText.sha3_256 (".onion checksum".toUTF8.toList ++ key.val ++ [0x03])).val.take 2 ++
        [0x03])
      have suffix : ".onion".utf8ByteSize = 6 := rfl
      simp only [List.length_append, key.property, List.length_take, List.length_singleton] at host
      simp only [onionHost, String.utf8ByteSize_append, suffix, textSize]
      omega
  | i2p hash port =>
      have host := utf8ByteSize_base32 hash.val
      have suffix : ".b32.i2p".utf8ByteSize = 8 := rfl
      rw [hash.property] at host
      simp only [String.utf8ByteSize_append, suffix, textSize]
      omega

end PeerAddr

/-! ## The fields of an announcement -/

section Fields

open Protobuf

variable [AddrText]

def GossipedAddress.fields (g : GossipedAddress) : List Field :=
  string 1 g.addr.display ++ uint 2 g.services.toNat ++ uint 3 g.ntime.toNat

def AddrMessage.number : AddrMessage → Nat
  | .addr => 1
  | .addrv2 => 2

/-- The bytes of a float. -/
abbrev Double := { bytes : List UInt8 // bytes.length = 8 }

def AddressAnnouncement.fields (double : ℚ → Double) (address : GossipedAddress → List UInt8)
    (a : AddressAnnouncement) : List Field :=
  uint 1 a.message.number ++ uint 2 (a.unparsed % 2 ^ 32) ++ messages 3 (a.addresses.map address) ++
    boolean 4 a.solicited ++ uint 5 (a.rateLimited % 2 ^ 32) ++
    if a.rateLimitTokens = 0 then [] else [⟨6, .fixed64 (double a.rateLimitTokens)⟩]

def DroppedEvents.fields (dropped : DroppedEvents) : List Field :=
  uint 1 (dropped .pingRtt).toNat ++ uint 2 (dropped .blockAnnouncement).toNat ++
    uint 3 (dropped .addressAnnouncement).toNat ++ uint 4 (dropped .connectionResult).toNat ++
    uint 5 (dropped .handshake).toNat ++ uint 6 (dropped .compactBlockProbe).toNat ++
    uint 7 (dropped .feeFilter).toNat ++ uint 8 (dropped .sendCmpct).toNat

/-- The fields of an event with an announcement. -/
def PeerEvent.fields {H : Type} (dropped : DroppedEvents → List UInt8) (announcement : List UInt8)
    (event : PeerEvent H) : List Field :=
  uint 1 event.connectionId.toNat ++ uint 2 event.timestampMs.toNat ++
    string 3 event.peerAddr.display ++ string 4 event.userAgent ++
    optional 5 (event.transportVersion.map (·.toNat)) ++ messages 8 [announcement] ++
    uint 10 event.droppedEvents.toNat ++ uint 15 event.instanceId.toNat ++
    messages 16 (event.droppedByKind.toList.map dropped)

/-- prost's encoders of the messages an announcement is made of, which write their fields. -/
structure Prost (H : Type) where
  double : ℚ → Double
  address : GossipedAddress → List UInt8
  announcement : AddressAnnouncement → List UInt8
  dropped : DroppedEvents → List UInt8
  event : PeerEvent H → List UInt8
  address_writes : ∀ g, Writes g.fields (address g)
  announcement_writes : ∀ a, Writes (a.fields double address) (announcement a)
  dropped_writes : ∀ d, Writes (DroppedEvents.fields d) (dropped d)
  event_writes : ∀ e a, e.event = some (.addressAnnouncement a) →
    Writes (e.fields dropped (announcement a)) (event e)

/-- Encoders that write the fields in their order. -/
def Prost.inOrder (double : ℚ → Double) (H : Type) : Prost H where
  double := double
  address g := g.fields.flatMap Field.encode
  announcement a := (a.fields double fun g => g.fields.flatMap Field.encode).flatMap Field.encode
  dropped d := (DroppedEvents.fields d).flatMap Field.encode
  event e :=
    match e.event with
    | some (.addressAnnouncement a) =>
        (e.fields (fun d => (DroppedEvents.fields d).flatMap Field.encode)
          ((a.fields double fun g => g.fields.flatMap Field.encode).flatMap
            Field.encode)).flatMap Field.encode
    | _ => []
  address_writes _ := ⟨_, .refl _, rfl⟩
  announcement_writes _ := ⟨_, .refl _, rfl⟩
  dropped_writes _ := ⟨_, .refl _, rfl⟩
  event_writes e a announces := ⟨_, .refl _, by simp only [announces]⟩

/-! ## How long they are -/

/-- The most an address takes in an announcement. -/
def PeerAddr.fieldSize (addr : PeerAddr) : Nat := addr.textSize + 21

namespace Prost

variable {H : Type} (prost : Prost H) (texts : AddrText.Bounded)

include texts

theorem address_size (g : GossipedAddress) :
    Field.size ⟨3, .delimited (prost.address g)⟩ ≤ g.addr.fieldSize := by
  have text := g.addr.display_size texts
  have most := g.addr.textSize_le
  have addr := size_string_le 1 g.addr.display 0 (by decide) (by omega)
  have services := size_uint64_le 2 g.services (by decide)
  have ntime := size_uint32_le 3 (by decide) g.ntime.toNat_lt
  have length := (prost.address_writes g).length
  simp only [GossipedAddress.fields, size_append] at length
  have field := size_delimited_le 3 (prost.address g) 0 0 (by decide) (by omega)
  unfold PeerAddr.fieldSize
  omega

theorem addresses_size (gossip : List GossipedAddress) :
    size (messages 3 (gossip.map prost.address)) ≤ (gossip.map (·.addr.fieldSize)).sum := by
  induction gossip with
  | nil => exact Nat.le_refl 0
  | cons g rest ih =>
      have first := prost.address_size texts g
      simp only [messages, List.map_cons, size_cons, List.sum_cons] at ih ⊢
      omega

theorem announcement_size (a : AddressAnnouncement) :
    (prost.announcement a).length ≤ (a.addresses.map (·.addr.fieldSize)).sum + 25 := by
  have message := size_uint_le 1 a.message.number 0 0 (by decide)
    (by cases a.message <;> decide)
  have unparsed := size_uint32_le 2 (by decide) (Nat.mod_lt a.unparsed (Nat.two_pow_pos 32))
  have addresses := prost.addresses_size texts a.addresses
  have solicited := size_boolean_le 4 a.solicited (by decide)
  have limited := size_uint32_le 5 (by decide)
    (Nat.mod_lt a.rateLimited (Nat.two_pow_pos 32))
  have tokens : size (if a.rateLimitTokens = 0 then []
      else [⟨6, .fixed64 (prost.double a.rateLimitTokens)⟩]) ≤ 9 := by
    split
    · exact Nat.zero_le _
    · exact size_fixed64_le _ (by decide)
  have length := (prost.announcement_writes a).length
  simp only [AddressAnnouncement.fields, size_append] at length
  omega

omit texts in
theorem dropped_size (d : DroppedEvents) : (prost.dropped d).length ≤ 88 := by
  have count (number : Nat) (kind : Kind) (short : number * 8 < 128) :
      size (uint number (d kind).toNat) ≤ 11 := size_uint64_le number _ short
  have length := (prost.dropped_writes d).length
  simp only [DroppedEvents.fields, size_append] at length
  have := count 1 .pingRtt (by decide)
  have := count 2 .blockAnnouncement (by decide)
  have := count 3 .addressAnnouncement (by decide)
  have := count 4 .connectionResult (by decide)
  have := count 5 .handshake (by decide)
  have := count 6 .compactBlockProbe (by decide)
  have := count 7 .feeFilter (by decide)
  have := count 8 .sendCmpct (by decide)
  omega

/-- What is not an address takes no more than 1300 bytes. -/
theorem event_size (event : PeerEvent H) {a : AddressAnnouncement}
    (announces : event.event = some (.addressAnnouncement a))
    (agent : event.userAgent.length ≤ MAX_USER_AGENT_CHARS)
    (few : (a.addresses.map (·.addr.fieldSize)).sum ≤ 42 * MAX_MSG_SIZE / 13) :
    (prost.event event).length ≤ (a.addresses.map (·.addr.fieldSize)).sum + 1300 := by
  have connection := size_uint64_le 1 event.connectionId (by decide)
  have timestamp := size_uint64_le 2 event.timestampMs (by decide)
  have text := event.peerAddr.display_size texts
  have most := event.peerAddr.textSize_le
  have peer := size_string_le 3 event.peerAddr.display 0 (by decide) (by omega)
  have chars := utf8ByteSize_le event.userAgent
  rw [MAX_USER_AGENT_CHARS] at agent
  have userAgent := size_string_le 4 event.userAgent 1 (by decide) (by omega)
  have version := size_optional_le 5 (event.transportVersion.map (·.toNat)) 0 4
    (by decide) (by
      intro version known
      obtain ⟨version, -, rfl⟩ := Option.map_eq_some_iff.mp known
      exact Nat.lt_of_lt_of_le version.toNat_lt (by decide))
  have length := prost.announcement_size texts a
  have announcement := size_delimited_le 8 (prost.announcement a) 0 3
    (by decide) (by rw [MAX_MSG_SIZE] at few; omega)
  have dropped := size_uint64_le 10 event.droppedEvents (by decide)
  have instanceId := size_uint64_le 15 event.instanceId (by decide)
  have byKind : size (messages 16 (event.droppedByKind.toList.map prost.dropped)) ≤ 91 := by
    cases event.droppedByKind with
    | none => exact Nat.zero_le _
    | some d =>
        have length := prost.dropped_size d
        have field := size_delimited_le 16 (prost.dropped d) 1 0 (by decide)
          (by omega)
        simp only [messages, Option.toList_some, List.map_cons, List.map_nil, size_cons, size_nil]
        omega
  have whole := (prost.event_writes event a announces).length
  simp only [PeerEvent.fields, size_append, messages, List.map_cons, List.map_nil, size_cons,
    size_nil] at whole byKind
  omega

end Prost

end Fields

/-! ## Against the bytes on the wire -/

/-- How long the address of a network is. -/
def AddrV2.Sized : AddrV2 → Nat → Prop
  | .ipv4 _, length => length = 4
  | .ipv6 _, length | .cjdns _, length => length = 16
  | .torV3 _, length | .i2p _, length => length = 32
  | .unknown .., _ => True

/-- Entries of a message that take so many bytes as fields for so many on the wire. -/
def Weighs (gossip : List GossipedAddress) (bytes : Nat) : Prop :=
  13 * (gossip.map (·.addr.fieldSize)).sum ≤ 42 * bytes

theorem PeerAddr.fieldSize_ofSocketAddr (sa : SocketAddr) :
    (PeerAddr.fromSocketAddr sa).fieldSize ≤ 74 := by
  unfold PeerAddr.fromSocketAddr
  repeat' split
  all_goals simp [PeerAddr.fieldSize, PeerAddr.textSize]

namespace AddrCodec

variable {codec : AddrCodec}

variable (codec) in
/-- The decoders of the messages that carry addresses, as they are documented. -/
structure Decoders where
  canonical : codec.Canonical
  strict : Strict
  documented : strict.Documented codec
  sized : ∀ network len raw addr,
    codec.deserializeAddrV2 (network :: codec.emitCompactSize len ++ raw) = some addr →
      raw.length = len.toNat → addr.Sized raw.length
  /-- `deserialize` of an addr payload. -/
  deserializeAddr : List UInt8 → Option (List (UInt32 × Address))
  /-- A count, and thirty bytes an entry. -/
  thirty : ∀ payload addrs, deserializeAddr payload = some addrs →
    ∃ count rest, codec.readCompactSize payload = some (count, rest) ∧
      count.toNat = addrs.length ∧ 30 * addrs.length ≤ rest.length

/-- The messages a payload of addresses comes up as: decoded, or raw and left to the lenient
    reader. -/
inductive Decoders.Carries (decoders : codec.Decoders) (payload : List UInt8) {H : Type} :
    NetworkMessage H → Prop where
  | addr {addrs : List (UInt32 × Address)} : decoders.deserializeAddr payload = some addrs →
      decoders.Carries payload (.addr addrs)
  | addrV2 {messages : List AddrV2Message} : decoders.strict.deserialize payload = some messages →
      decoders.Carries payload (.addrV2 messages)
  | lenient : decoders.Carries payload (.unknown "addrv2" payload)

namespace Decoders

variable (decoders : codec.Decoders)

include decoders

/-- What a frame becomes against the bytes it took. The worst are IPv4 addresses. -/
theorem frame_weighs {frame : Frame} (long : frame.address.length = frame.len.toNat)
    {m : AddrV2Message} (entry : frame.entry codec = some m) {addr : PeerAddr}
    (known : PeerAddr.ofAddrV2 m = some addr) :
    13 * addr.fieldSize ≤ 42 * (9 + frame.address.length) := by
  obtain ⟨v2, deserialized, rfl⟩ := Option.map_eq_some_iff.mp entry
  have sized := decoders.sized _ _ _ _ deserialized long
  cases v2 with
  | unknown => cases known
  | ipv6 ip =>
      obtain rfl := Option.some.inj known
      simp only [AddrV2.Sized] at sized
      exact (Nat.mul_le_mul_left 13 (PeerAddr.fieldSize_ofSocketAddr _)).trans (by omega)
  | _ =>
      obtain rfl := Option.some.inj known
      simp only [AddrV2.Sized] at sized
      simp [PeerAddr.fieldSize, PeerAddr.textSize, sized]

theorem frames_weigh (received : Nat) {count : Nat} {bytes : List UInt8} {frames : List Frame}
    (read : codec.Frames count bytes frames) :
    Weighs (announcedV2 received (frames.filterMap (Frame.entry codec))).parsed bytes.length := by
  induction read with
  | done => exact Nat.zero_le _
  | stuck => exact Nat.zero_le _
  | @next _ _ _ frame _ framed _ ih =>
      have span := framed.span decoders.canonical
      unfold Weighs announcedV2 at ih ⊢
      dsimp only at ih ⊢
      rw [List.filterMap_cons]
      cases entry : frame.entry codec with
      | none =>
          dsimp only
          omega
      | some m =>
          dsimp only
          rw [List.filterMap_cons]
          cases known : PeerAddr.ofAddrV2 m with
          | none =>
              rw [Option.map_none]
              dsimp only
              omega
          | some addr =>
              obtain ⟨_, _, _, _, _, _, long, _⟩ := framed
              have weight := decoders.frame_weighs long entry known
              simp only [Option.map_some, List.map_cons, List.sum_cons]
              omega

theorem keeps_weighs (received : Nat) {payload : List UInt8} {result : Nat × List AddrV2Message}
    (keeps : codec.Keeps payload result) :
    Weighs (announcedV2 received result.2).parsed payload.length := by
  cases keeps with
  | uncounted => exact Nat.zero_le _
  | counted reads frames =>
      have shorter := decoders.canonical.shorter reads
      exact (decoders.frames_weigh received frames).trans (Nat.mul_le_mul_left 42 (by omega))

omit decoders in
theorem addrs_size {H : Type} (addrs : List (UInt32 × Address)) {a : Announced}
    (announced : codec.announced (.addr addrs : NetworkMessage H) = some a) :
    (a.parsed.map (·.addr.fieldSize)).sum ≤ 74 * addrs.length := by
  obtain rfl := Option.some.inj announced
  dsimp only
  induction addrs with
  | nil => exact Nat.zero_le _
  | cons entry rest ih =>
      have later := ih rfl
      rw [List.filterMap_cons, List.length_cons]
      unfold PeerAddr.ofAddress at later ⊢
      cases codec.socketAddr entry.2 with
      | none =>
          simp only [Option.map_none]
          omega
      | some sa =>
          have size := PeerAddr.fieldSize_ofSocketAddr sa
          simp only [Option.map_some, List.map_cons, List.sum_cons]
          omega

/-- Whatever a payload brings is in proportion to its length. -/
theorem carries_weighs {H : Type} {payload : List UInt8} {message : NetworkMessage H}
    (carries : decoders.Carries payload message) {a : Announced}
    (announced : codec.announced message = some a) : Weighs a.parsed payload.length := by
  have keeps := parse_keeps decoders.canonical payload
  cases carries with
  | addr decoded =>
      obtain ⟨count, rest, reads, -, thirty⟩ := decoders.thirty _ _ decoded
      have shorter := decoders.canonical.shorter reads
      have size := addrs_size _ announced
      unfold Weighs
      omega
  | addrV2 decoded =>
      obtain rfl := Option.some.inj announced
      rw [(decoders.documented.parse decoders.canonical decoded).2] at keeps
      exact decoders.keeps_weighs _ keeps
  | lenient =>
      obtain rfl := Option.some.inj announced
      exact decoders.keeps_weighs _ keeps

end Decoders

end AddrCodec

/-! ## Through the handler -/

variable {H : Type}

/-- A handler of addresses emits one event: the announcement of what it read. -/
def Question.Announces (userAgent : String) (gossip : List GossipedAddress) : Question H → Prop
  | .emit event => event.userAgent = userAgent ∧
      ∃ a, event.event = some (.addressAnnouncement a) ∧ a.addresses = gossip
  | _ => True

namespace Connection

theorem announces_timed (conn : Connection H) (a : Announced) :
    wp (Monitor.only Answer
        (Question.Announces conn.handshakeInfo.version.userAgent a.parsed))
      (timed fun now restart => conn.offerGossip now restart a.message a.received a.parsed)
      (fun _ _ => True) () := by
  refine ⟨trivial, fun now => ⟨trivial, fun restart => ⟨trivial, fun timestampMs => ?_⟩⟩⟩
  refine ⟨⟨rfl, _, rfl, rfl⟩, fun _ => ?_⟩
  dsimp only
  split
  · trivial
  · exact ⟨trivial, fun _ => trivial⟩

theorem announces_handleMessage [DecidableEq H] {codec : AddrCodec} (net : Network H)
    (conn : Connection H) {message : NetworkMessage H} {a : Announced}
    (announced : codec.announced message = some a) :
    wp (Monitor.only Answer
        (Question.Announces conn.handshakeInfo.version.userAgent a.parsed))
      (conn.handleMessage net codec message) (fun _ _ => True) () := by
  have timed := announces_timed { conn with stats := conn.stats.recordMessage message.command } a
  cases message with
  | addr | addrV2 =>
      obtain rfl := Option.some.inj announced
      exact timed
  | unknown command payload =>
      unfold AddrCodec.announced at announced
      unfold handleMessage dispatch
      dsimp only at announced ⊢
      split at announced
      · obtain rfl := Option.some.inj announced
        rename_i lenient
        rw [if_pos lenient]
        exact timed
      · cases announced
  | _ => cases announced

end Connection

/-- A record a reader takes off a file whole and leaves to prost. -/
def ArchiveCodec.Takes (archive : ArchiveCodec H) (bytes : List UInt8) : Prop :=
  ∀ (source : Chunks.Source UInt8) (rest : List UInt8),
    source.left = archive.encodeLengthDelimiter bytes.length ++ bytes ++ rest →
    ∃ after : Chunks.Source UInt8, after.left = rest ∧
      readMessage archive archive.decodeEvent source = (decoded (archive.decodeEvent bytes), after)

/-- Every event with addresses that a session emits for a message of a size the transport takes,
    whatever counts it is stamped with, fits a record, and a reader does not refuse it. -/
theorem announcement_fits [AddrText] [DecidableEq H] (texts : AddrText.Bounded) {codec : AddrCodec}
    (decoders : codec.Decoders) (prost : Prost H) (archive : ArchiveCodec H) (net : Network H)
    (conn : Connection H)
    (agent : conn.handshakeInfo.version.userAgent.length ≤ MAX_USER_AGENT_CHARS)
    {payload : List UInt8} (small : payload.length ≤ MAX_MSG_SIZE) {message : NetworkMessage H}
    (carries : decoders.Carries payload message) {trace : List (Exchange (Question H) Answer)}
    {end_ : Option (Except (AnyError × Connection H) (Connection H))}
    (runs : Runs (conn.handleMessage net codec message) trace end_) {event : PeerEvent H}
    (emitted : ⟨.emit event, ()⟩ ∈ trace) (droppedEvents instanceId : UInt64)
    (droppedByKind : Option DroppedEvents) :
    let bytes := prost.event { event with droppedEvents, instanceId, droppedByKind }
    bytes.length ≤ MAX_RECORD ∧ archive.Takes bytes := by
  intro bytes
  obtain ⟨a, announced⟩ : ∃ a, codec.announced message = some a := by
    cases carries <;> exact ⟨_, rfl⟩
  obtain ⟨said, announcement, announces, same⟩ :=
    runs.allowed (conn.announces_handleMessage net announced) _ emitted
  have weighs := decoders.carries_weighs carries announced
  rw [Weighs, ← same] at weighs
  have short : bytes.length ≤ MAX_RECORD := by
    have few : (announcement.addresses.map (·.addr.fieldSize)).sum ≤ 42 * MAX_MSG_SIZE / 13 := by
      omega
    have size : bytes.length ≤ _ := prost.event_size texts _ announces (said ▸ agent) few
    rw [MAX_MSG_SIZE] at few
    rw [MAX_RECORD]
    omega
  refine ⟨short, fun source rest left => ?_⟩
  have fits : bytes.length < 2 ^ 64 := Nat.lt_of_le_of_lt short (by decide)
  exact readMessage_short archive archive.decodeEvent ⟨bytes, fits⟩ short left

namespace Greeting

def dotted (ip : Bytes 4) : String :=
  toString (ip.at 0).toNat ++ "." ++ toString (ip.at 1).toNat ++ "." ++
    toString (ip.at 2).toNat ++ "." ++ toString (ip.at 3).toNat

theorem dotted_size (ip : Bytes 4) : (dotted ip).utf8ByteSize ≤ 15 := by
  have dot : ".".utf8ByteSize = 1 := rfl
  have byte (i : Nat) : (toString (ip.at i).toNat).utf8ByteSize ≤ 3 :=
    utf8ByteSize_decimal (by decide) (Nat.lt_trans (ip.at i).toNat_lt (by decide))
  have := byte 0
  have := byte 1
  have := byte 2
  have := byte 3
  simp only [dotted, String.utf8ByteSize_append, dot]
  omega

/-- The text forms, as far as the announcement below goes. -/
@[reducible] def text : AddrText where
  ipv4 := dotted
  ipv6 _ := "::"
  sha3_256 := Ceiling.text.sha3_256

theorem text_bounded : @AddrText.Bounded text :=
  @AddrText.Bounded.mk text dotted_size fun _ => (by decide : "::".utf8ByteSize ≤ 39)

def decoders : codec.Decoders where
  canonical := canonical
  strict := strict
  documented := documented
  sized network len raw addr deserialized long := by
    obtain ⟨⟨_, rest⟩, found, rfl⟩ := Option.map_eq_some_iff.mp deserialized
    obtain ⟨decoded, whole⟩ := Option.filter_eq_some_iff.mp found
    obtain rfl := List.isEmpty_iff.mp whole
    obtain ⟨four, bytes, length, alone⟩ := decodeAddrV2_some decoded
    obtain rfl : raw = four ++ [] := (List.cons.inj (List.cons.inj bytes).2).2
    rw [decodeAddrV2, dif_pos (Nat.le_of_eq length.symm)] at alone
    obtain ⟨rfl, -⟩ := Prod.mk.inj (Option.some.inj alone)
    rw [List.append_nil]
    exact length
  deserializeAddr _ := none
  thirty _ _ decoded := by cases decoded

/-- prost, as far as the float below goes. -/
def prost : @Prost text (List Nat) :=
  @Prost.inOrder text (fun _ => ⟨[0, 0, 0, 0, 0, 0x40, 0x8f, 0x40], rfl⟩) (List Nat)

/-- What a session emits for the two addresses. -/
def event : PeerEvent (List Nat) where
  timestampMs := 5
  peerAddr := Flood.conn.addr
  userAgent := Flood.conn.handshakeInfo.version.userAgent
  transportVersion := some 2
  connectionId := 1
  droppedEvents := 0
  instanceId := 0
  droppedByKind := none
  event := some (.addressAnnouncement (Flood.conn.handleAddrv2 0 0 messages).event)

/-- The event with counts it is stamped with. -/
def stamped (droppedEvents instanceId : UInt64) : PeerEvent (List Nat) :=
  { event with droppedEvents, instanceId }

open Protobuf

/-- prost's decoder, as far as this event goes: the counts, where the rest are its fields. -/
def readStamped (bytes : List UInt8) : Option (PeerEvent (List Nat)) := do
  let fields ← decode bytes
  let read := stamped (.ofNat (readUint 10 fields)) (.ofNat (readUint 15 fields))
  if @Prost.event text _ prost read = bytes then return read else none

theorem readStamped_stamped (droppedEvents instanceId : UInt64) :
    readStamped (@Prost.event text _ prost (stamped droppedEvents instanceId)) =
      some (stamped droppedEvents instanceId) := by
  obtain ⟨announcement, dropped, bytes⟩ : ∃ announcement dropped,
      @Prost.event text _ prost (stamped droppedEvents instanceId) =
        (@PeerEvent.fields text _ dropped announcement
          (stamped droppedEvents instanceId)).flatMap Field.encode := ⟨_, _, rfl⟩
  have lost : readUint 10 (@PeerEvent.fields text _ dropped announcement
      (stamped droppedEvents instanceId)) = droppedEvents.toNat :=
    readUint_of_values (by simp [PeerEvent.fields, stamped])
  have run : readUint 15 (@PeerEvent.fields text _ dropped announcement
      (stamped droppedEvents instanceId)) = instanceId.toNat :=
    readUint_of_values (by simp [PeerEvent.fields, stamped])
  rw [readStamped, bytes, decode_encode]
  simp [lost, run, bytes]

def archive : ArchiveCodec (List Nat) where
  encodeLengthDelimiter := pingCodec.encodeLengthDelimiter
  decodeLengthDelimiter := pingCodec.decodeLengthDelimiter
  encodeHeader := pingCodec.encodeHeader
  decodeHeader := pingCodec.decodeHeader
  decodeEvent := readStamped
  compress := pingCodec.compress
  decompress := pingCodec.decompress
  delimiter_varint := pingCodec.delimiter_varint
  delimiter_roundTrip := pingCodec.delimiter_roundTrip
  header_roundTrip := pingCodec.header_roundTrip
  zstd_roundTrip := pingCodec.zstd_roundTrip

end Greeting

/-- The two addresses of an accepted addrv2, after three losses. -/
theorem announcement_fits_greeting :
    let event := Greeting.stamped 3 7
    let bytes := @Prost.event Greeting.text _ Greeting.prost event
    bytes.length ≤ MAX_RECORD ∧ ∀ (source : Chunks.Source UInt8) (rest : List UInt8),
      source.left = Greeting.archive.encodeLengthDelimiter bytes.length ++ bytes ++ rest →
      ∃ after : Chunks.Source UInt8, after.left = rest ∧
        readMessage Greeting.archive Greeting.archive.decodeEvent source =
          (.ok (some event), after) := by
  have runs : Runs (Flood.conn.handleMessage Params.mainnet.network Greeting.codec
      (.addrV2 Greeting.messages))
      [⟨.now, (0 : ℚ)⟩, ⟨.now, (0 : ℚ)⟩, ⟨.unixMs, (5 : UInt64)⟩, ⟨.emit Greeting.event, ()⟩]
      none := .ask (.ask (.ask (.ask (.stopped _))))
  have carries : Greeting.decoders.Carries Greeting.payload.bytes
      (.addrV2 Greeting.messages : NetworkMessage (List Nat)) := .addrV2 rfl
  have emitted : (⟨.emit Greeting.event, ()⟩ : Exchange (Question (List Nat)) Answer) ∈
      [⟨.now, (0 : ℚ)⟩, ⟨.now, (0 : ℚ)⟩, ⟨.unixMs, (5 : UInt64)⟩, ⟨.emit Greeting.event, ()⟩] :=
    .tail _ (.tail _ (.tail _ (.head _)))
  obtain ⟨short, takes⟩ := @announcement_fits (List Nat) Greeting.text _ Greeting.text_bounded _
    Greeting.decoders Greeting.prost Greeting.archive _ Flood.conn (by decide) _ (by decide) _
    carries _ _ runs _ emitted 3 7 none
  refine ⟨short, fun source rest left => ?_⟩
  obtain ⟨after, unread, read⟩ := takes source rest left
  refine ⟨after, unread, read.trans ?_⟩
  exact congrArg (fun event => (decoded event, after)) (Greeting.readStamped_stamped 3 7)

end P2PObserver
