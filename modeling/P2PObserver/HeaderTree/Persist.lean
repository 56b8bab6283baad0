import P2PObserver.HeaderTree.Delivered

/-! # Saving and loading

`save` writes the headers as 80-byte records, lowest first and the best chain ahead of
its equals; `load` replays the records through ordinary insertion. The consensus
encoding of a header comes from rust-bitcoin as a `HeaderCodec`.
-/

namespace P2PObserver

/-- Consensus `serialize` and `deserialize` of a header. -/
structure HeaderCodec (H : Type) where
  serialize : Header H → List UInt8
  deserialize : List UInt8 → Option (Header H)

def HEADER_SIZE : Nat := 80

inductive ChainTipStatus where
  | active
  | headersOnly
  deriving DecidableEq, Repr

structure ChainTip (H : Type) where
  hash : H
  height : Nat
  branchLen : Nat
  status : ChainTipStatus
  deriving DecidableEq, Repr

/-- What became of a `save`. -/
inductive SaveResult where
  | clean
  | written (bytes : List UInt8)
  | failed
  deriving DecidableEq, Repr

/-- What reading the file gave. -/
inductive FileRead where
  | found (bytes : List UInt8)
  | notFound
  | failed
  deriving DecidableEq, Repr

inductive LoadError where
  | read
  /-- The file's size is not a multiple of `HEADER_SIZE`. -/
  | size (bytes : Nat)
  | deserialize
  deriving DecidableEq, Repr

variable {H : Type} [LinearOrder H]

namespace HeaderTree

/-! ## Chain tips -/

/-- How many headers since the branch last shared a block with the best chain. The
    fuel bounds the source's `loop`; running out of map is its panic. -/
def branchLen (t : HeaderTree H) : Nat → Nat → H → Nat
  | 0, _, _ => 0
  | fuel + 1, height, hash =>
      if t.bestChain[height]? = some hash then 0
      else
        match t.headers.lookup hash with
        | none => 0
        | some entry => branchLen t fuel (height - 1) entry.header.prevBlockhash + 1

/-- `chain_tips`: the headers no other header builds on. -/
def chainTips (t : HeaderTree H) : List (ChainTip H) :=
  let parents := (t.headers.entries.filter fun e => 0 < e.2.height).map
    fun e => e.2.header.prevBlockhash
  (t.headers.entries.filter fun e => !parents.contains e.1).map fun e =>
    { hash := e.1
      height := e.2.height
      branchLen := t.branchLen (e.2.height + 1) e.2.height e.1
      status := if e.1 = t.tip then .active else .headersOnly }

/-! ## The file -/

/-- The sort key of the file: height, then the best chain first, then the hash. -/
def fileKey (bestChain : List H) (e : Sigma fun _ : H => HeaderEntry H) : Nat ×ₗ Bool ×ₗ H :=
  toLex (e.2.height, toLex (!bestChain.contains e.1, e.1))

/-- The entries in the order they are written. -/
def fileEntries (t : HeaderTree H) : List (Sigma fun _ : H => HeaderEntry H) :=
  HashMap.sortedBy (fileKey t.bestChain) t.headers

/-- The headers in the order they are written. -/
def fileHeaders (t : HeaderTree H) : List (Header H) := t.fileEntries.map fun e => e.2.header

def fileBytes (codec : HeaderCodec H) (t : HeaderTree H) : List UInt8 :=
  t.fileHeaders.flatMap codec.serialize

/-- `save`; `disk` says whether the write goes through. -/
def save (codec : HeaderCodec H) (disk : Bool) (t : HeaderTree H) : HeaderTree H × SaveResult :=
  if t.dirty = false then (t, .clean)
  else if disk then ({ t with dirty := false }, .written (t.fileBytes codec))
  else (t, .failed)

/-- The records of a file, in order. -/
def records (data : List UInt8) : List (List UInt8) :=
  (List.range (data.length / HEADER_SIZE)).map fun i =>
    (data.drop (i * HEADER_SIZE)).take HEADER_SIZE

/-- The loop of `load`: refused headers are skipped, bytes that are no header end it. -/
def loadRecords (codec : HeaderCodec H) (net : Network H) (t : HeaderTree H) :
    List (List UInt8) → Except LoadError (HeaderTree H)
  | [] => .ok t
  | record :: rest =>
      match codec.deserialize record with
      | none => .error .deserialize
      | some header => loadRecords codec net (t.insertInner net header).1 rest

/-- `load`. -/
def load (codec : HeaderCodec H) (net : Network H) (checkpoints : List (Checkpoint H))
    (file : FileRead) : Except LoadError (HeaderTree H) :=
  match file with
  | .notFound => .ok (withCheckpoints net checkpoints)
  | .failed => .error .read
  | .found data =>
      if data.length % HEADER_SIZE ≠ 0 then .error (.size data.length)
      else
        (loadRecords codec net (withCheckpoints net checkpoints) (records data)).map fun t =>
          let t := t.rebuildBestChain
          { t with dirty := decide (0 < t.pruned) }

/-- What `load` makes of a well-formed file with these headers. -/
def reload (net : Network H) (checkpoints : List (Checkpoint H)) (headers : List (Header H)) :
    HeaderTree H :=
  let t := ((withCheckpoints net checkpoints).insertEach net headers).1.rebuildBestChain
  { t with dirty := decide (0 < t.pruned) }

/-! ## Reading back what was written -/

/-- The codec takes these headers to 80 bytes and back. -/
def RoundTrips (codec : HeaderCodec H) (headers : List (Header H)) : Prop :=
  ∀ header ∈ headers, (codec.serialize header).length = HEADER_SIZE ∧
    codec.deserialize (codec.serialize header) = some header

omit [LinearOrder H] in
theorem length_flatMap_serialize {codec : HeaderCodec H} {headers : List (Header H)}
    (sound : RoundTrips codec headers) :
    (headers.flatMap codec.serialize).length = headers.length * HEADER_SIZE := by
  induction headers with
  | nil => simp
  | cons header rest ih =>
      have first := (sound header List.mem_cons_self).1
      have more := ih fun h member => sound h (List.mem_cons_of_mem _ member)
      rw [List.flatMap_cons, List.length_append, first, more, List.length_cons, Nat.add_mul]
      omega

omit [LinearOrder H] in
theorem records_flatMap {codec : HeaderCodec H} {headers : List (Header H)}
    (sound : RoundTrips codec headers) :
    records (headers.flatMap codec.serialize) = headers.map codec.serialize := by
  induction headers with
  | nil => simp [records]
  | cons header rest ih =>
      have first := (sound header List.mem_cons_self).1
      have tail : RoundTrips codec rest := fun h member => sound h (List.mem_cons_of_mem _ member)
      have more := ih tail
      rw [records, length_flatMap_serialize tail, Nat.mul_div_cancel _ (by decide)] at more
      rw [records, length_flatMap_serialize sound, Nat.mul_div_cancel _ (by decide),
        List.length_cons, List.range_succ_eq_map, List.map_cons, List.map_map, List.map_cons,
        ← more]
      congr 1
      · rw [Nat.zero_mul, List.drop_zero, List.flatMap_cons, ← first, List.take_left]
      · apply List.map_congr_left
        intro i _
        have skip : (i + 1) * HEADER_SIZE = (codec.serialize header).length + i * HEADER_SIZE := by
          rw [first, Nat.succ_mul, Nat.add_comm]
        simp only [Function.comp_apply, Nat.succ_eq_add_one, skip, List.flatMap_cons,
          List.drop_length_add_append]

theorem loadRecords_map {codec : HeaderCodec H} {net : Network H} {headers : List (Header H)}
    (sound : RoundTrips codec headers) (t : HeaderTree H) :
    loadRecords codec net t (headers.map codec.serialize) = .ok (t.insertEach net headers).1 := by
  induction headers generalizing t with
  | nil => rfl
  | cons header rest ih =>
      rw [List.map_cons, loadRecords, (sound header List.mem_cons_self).2, insertEach_cons_tree]
      exact ih (fun h member => sound h (List.mem_cons_of_mem _ member)) _

/-- A file written from headers the codec round trips is replayed header by header. -/
theorem load_flatMap {codec : HeaderCodec H} {net : Network H} {checkpoints : List (Checkpoint H)}
    {headers : List (Header H)} (sound : RoundTrips codec headers) :
    load codec net checkpoints (.found (headers.flatMap codec.serialize)) =
      .ok (reload net checkpoints headers) := by
  have whole : ¬ (headers.flatMap codec.serialize).length % HEADER_SIZE ≠ 0 := by
    rw [length_flatMap_serialize sound, Nat.mul_mod_left]
    simp
  simp only [load]
  rw [if_neg whole, records_flatMap sound, loadRecords_map sound]
  rfl

end HeaderTree

end P2PObserver
