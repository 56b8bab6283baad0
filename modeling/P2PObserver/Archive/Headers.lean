import Mathlib.Data.List.Chain
import P2PObserver.Archive.RoundTrip
import P2PObserver.Lib.Run

/-! # When a file was opened

A header is documented to say when its file was opened. The archiver builds one header, before it
connects, and begins every file with it.
-/

namespace P2PObserver

open Chunks

variable {H : Type} (codec : ArchiveCodec H)

/-! ## The archiver and the clock -/

/-- When a file was opened and its records were written, in unix seconds. -/
structure Life where
  opened : Nat
  written : List Nat

/-- A message of the subscription, with the seconds it takes. -/
structure Delivery where
  payload : Payload
  /-- From the last to the record of this one. -/
  wait : Nat
  /-- From its record to the opening of the next file, where it fills this one. -/
  lag : Nat

/-- The header the program builds at `created`. -/
def Args.header (args : Args) (created : UInt64) : ArchiveHeader :=
  ⟨created, args.network, (Filter.ofArgs args).kinds⟩

/-- The archiver, the clock and what became of its files. -/
structure Recording where
  archiver : Archiver
  clock : Nat
  /-- Of the files it closed. -/
  lives : List Life
  life : Life

namespace Recording

section Run

variable (filter : Filter) (header : codec.Header) (full : Nat → ArchiveFile → Bool)

/-- Whether a message is kept and fills the file. -/
def Fills (s : Recording) (payload : Payload) : Prop :=
  (Archiver.accepted codec filter payload).isSome ∧
    full (s.archiver.events + 1) (s.archiver.file.writeRecord codec payload)

instance (s : Recording) (payload : Payload) : Decidable (Fills codec filter full s payload) :=
  inferInstanceAs (Decidable (_ ∧ _))

def step (s : Recording) (d : Delivery) : Recording :=
  let now := s.clock + d.wait
  let archiver := s.archiver.step codec filter header full d.payload
  let life := { s.life with written := s.life.written ++ [now] }
  if Fills codec filter full s d.payload then
    { archiver, clock := now + d.lag, lives := s.lives ++ [life], life := ⟨now + d.lag, []⟩ }
  else if (Archiver.accepted codec filter d.payload).isSome then
    { archiver, clock := now, lives := s.lives, life }
  else { s with archiver, clock := now }

/-- The first file is open, `setup` seconds after its header was built. -/
def start (compressed : Bool) (setup : Nat) : Recording where
  archiver := .new codec compressed header
  clock := header.val.created.toNat + setup
  lives := []
  life := ⟨header.val.created.toNat + setup, []⟩

end Run

/-- The files, the last one closed. -/
def files (s : Recording) : List StoredFile := s.archiver.closed ++ [s.archiver.file.finalize codec]

/-- What became of the files. -/
def history (s : Recording) : List Life := s.lives ++ [s.life]

end Recording

/-! ## What a header says -/

/-- A header describes its file, given the one before it. -/
structure Describes (args : Args) (before : Option Life) (life : Life) (header : ArchiveHeader) :
    Prop where
  created : header.created.toNat = life.opened
  covers : ∀ earlier ∈ before, ∀ time ∈ earlier.written, time ≤ header.created.toNat
  network : header.network = args.network
  kinds : header.events = (Filter.ofArgs args).kinds

/-- Files that each begin with a header that describes them. -/
inductive Described (args : Args) : Option Life → List StoredFile → List Life → Prop where
  | nil {before : Option Life} : Described args before [] []
  | cons {before : Option Life} {file : StoredFile} {files : List StoredFile} {life : Life}
      {lives : List Life} {header : codec.Header} {payloads : List Payload} :
      Stored codec header file payloads → Describes args before life header →
        Described args (some life) files lives →
          Described args before (file :: files) (life :: lives)

/-- No record of a file is written after the next is opened. -/
def Follows (earlier later : Life) : Prop := ∀ time ∈ earlier.written, time ≤ later.opened

variable {codec}

theorem ArchiveFile.finalize_injective {file file' : ArchiveFile}
    (same : file.finalize codec = file'.finalize codec) : file.written = file'.written := by
  obtain ⟨zst, contents⟩ := StoredFile.mk.inj same
  rw [← zst] at contents
  split at contents
  · have back := congrArg codec.decompress contents
    rw [codec.zstd_roundTrip, codec.zstd_roundTrip] at back
    exact Option.some.inj back
  · exact contents

/-- A file has one header. -/
theorem Stored.header_unique {header header' : codec.Header} {file : StoredFile}
    {payloads payloads' : List Payload} (stored : Stored codec header file payloads)
    (stored' : Stored codec header' file payloads') : header = header' := by
  obtain ⟨contents, rfl, written⟩ := stored.written
  obtain ⟨contents', same, written'⟩ := stored'.written
  rw [ArchiveFile.finalize_injective same, ArchiveFile.record, List.append_assoc] at written
  rw [ArchiveFile.record, List.append_assoc] at written'
  have source : contents'.written = Source.left ⟨contents'.written, []⟩ := rfl
  rw [source] at written written'
  obtain ⟨after, left, read⟩ := readLengthDelimiter_spec codec
    (codec.headerPayload header).property written
  obtain ⟨after', left', read'⟩ := readLengthDelimiter_spec codec
    (codec.headerPayload header').property written'
  rw [read] at read'
  obtain ⟨len, rfl⟩ := Prod.mk.inj read'
  have bytes := (List.append_inj (left.symm.trans left')
    (Option.some.inj (Except.ok.inj len))).1
  have back := congrArg codec.decodeHeader bytes
  rw [ArchiveCodec.headerPayload, ArchiveCodec.headerPayload, codec.header_roundTrip,
    codec.header_roundTrip] at back
  exact Subtype.ext (Option.some.inj back)

namespace Recording

variable {filter : Filter} {header : codec.Header} {full : Nat → ArchiveFile → Bool}

/-! ## What holds along a run -/

variable (header) in
/-- Every file begins with the one header, and no record comes after the next file. -/
structure Kept (s : Recording) : Prop where
  wrote : ∃ parts last, Archiver.Wrote codec header s.archiver parts last
  count : s.archiver.closed.length = s.lives.length
  order : s.history.IsChain Follows
  recent : ∀ time ∈ s.life.written, time ≤ s.clock

theorem kept_start (compressed : Bool) (setup : Nat) :
    Kept header (start codec header compressed setup) where
  wrote := ⟨[], [], .nil, by simp [start, Archiver.new, ArchiveFile.create]⟩
  count := rfl
  order := List.isChain_singleton _
  recent := by simp [start]

theorem closed_step (s : Recording) (payload : Payload) :
    (s.archiver.step codec filter header full payload).closed.length =
      if Fills codec filter full s payload then s.archiver.closed.length + 1
      else s.archiver.closed.length := by
  unfold Archiver.step
  by_cases fills : Fills codec filter full s payload
  · obtain ⟨event, known⟩ := Option.isSome_iff_exists.mp fills.1
    simp [if_pos fills, known, fills.2]
  · rw [if_neg fills]
    cases known : Archiver.accepted codec filter payload with
    | none => rfl
    | some event =>
        have room : ¬ full (s.archiver.events + 1) (s.archiver.file.writeRecord codec payload) :=
          fun filled => fills ⟨by rw [known]; rfl, filled⟩
        simp [room]

/-- Writing to the last file changes nothing for those before. -/
theorem order_written {lives : List Life} {life : Life} (order : (lives ++ [life]).IsChain Follows)
    (written : List Nat) : (lives ++ [{ life with written }]).IsChain Follows := by
  obtain ⟨before, -, last⟩ := List.isChain_append.mp order
  refine List.isChain_append.mpr ⟨before, List.isChain_singleton _, ?_⟩
  intro earlier listed later same
  obtain rfl := Option.some.inj same
  exact last earlier listed life rfl

theorem Kept.step {s : Recording} (kept : Kept header s) (d : Delivery) :
    Kept header (s.step codec filter header full d) := by
  obtain ⟨parts, last, wrote⟩ := kept.wrote
  obtain ⟨parts', last', wrote', -⟩ := wrote.step filter full d.payload
  have closed : (s.archiver.step codec filter header full d.payload).closed.length = _ :=
    closed_step s d.payload
  have written : ∀ time ∈ s.life.written ++ [s.clock + d.wait], time ≤ s.clock + d.wait := by
    intro time listed
    cases List.mem_append.mp listed with
    | inl earlier => exact (kept.recent time earlier).trans (Nat.le_add_right ..)
    | inr now => exact Nat.le_of_eq (List.mem_singleton.mp now)
  have order := order_written kept.order (s.life.written ++ [s.clock + d.wait])
  unfold Recording.step
  by_cases fills : Fills codec filter full s d.payload
  · rw [if_pos fills]
    refine ⟨⟨_, _, wrote'⟩, ?_, List.isChain_append.mpr ⟨order, List.isChain_singleton _, ?_⟩, ?_⟩
    · rw [closed, if_pos fills, kept.count, List.length_append, List.length_singleton]
    · intro earlier listed later same
      obtain rfl := Option.some.inj same
      rw [List.getLast?_append] at listed
      obtain rfl := Option.some.inj listed
      exact fun time listed => (written time listed).trans (Nat.le_add_right ..)
    · simp
  · have same : (s.archiver.step codec filter header full d.payload).closed.length =
        s.lives.length := by
      rw [closed, if_neg fills, kept.count]
    rw [if_neg fills]
    split
    · exact ⟨⟨_, _, wrote'⟩, same, order, written⟩
    · exact ⟨⟨_, _, wrote'⟩, same, kept.order,
        fun time listed => (kept.recent time listed).trans (Nat.le_add_right ..)⟩

/-! ## Which runs are described -/

/-- With one header for all of them, files are described where they were opened when it says. -/
theorem described_iff {args : Args} {created : UInt64} (built : header.val = args.header created)
    {files : List StoredFile} {parts : List (List Payload)}
    (stored : List.Forall₂ (Stored codec header) files parts) :
    ∀ {before : Option Life} {lives : List Life}, files.length = lives.length →
      (before.toList ++ lives).IsChain Follows →
      (Described codec args before files lives ↔ ∀ life ∈ lives, life.opened = created.toNat) := by
  induction stored with
  | nil =>
      intro before lives same _
      obtain rfl := List.length_eq_zero_iff.mp same.symm
      exact ⟨by simp, fun _ => .nil⟩
  | @cons file payloads files parts first _ ih =>
      intro before lives same order
      cases lives with
      | nil => cases same
      | cons life lives =>
          have chain : ((some life).toList ++ lives).IsChain Follows :=
            List.IsChain.right_of_append order
          have rest := ih (Nat.succ.inj same) chain
          constructor
          · intro described
            cases described with
            | cons stored describes described =>
                obtain rfl := first.header_unique stored
                refine List.forall_mem_cons.mpr ⟨?_, rest.mp described⟩
                rw [← describes.created, built]
                rfl
          · intro opened
            obtain ⟨now, opened⟩ := List.forall_mem_cons.mp opened
            refine .cons first ⟨?_, ?_, ?_, ?_⟩ (rest.mpr opened)
            · rw [now, built]
              rfl
            · intro earlier listed time written
              obtain rfl := listed
              have follows := (List.isChain_cons_cons.mp order).1 time written
              rw [now] at follows
              rw [built]
              exact follows
            · rw [built]
              rfl
            · rw [built]
              rfl

variable (filter header full) in
/-- A message that fills its file has the next opened in the second the header was built in. -/
def SameSecond (s : Recording) (d : Delivery) : Prop :=
  Fills codec filter full s d.payload → s.clock + d.wait + d.lag = header.val.created.toNat

theorem opened_step (s : Recording) (d : Delivery) :
    (∀ life ∈ (s.step codec filter header full d).history, life.opened = header.val.created.toNat) ↔
      (∀ life ∈ s.history, life.opened = header.val.created.toNat) ∧
        SameSecond filter header full s d := by
  unfold Recording.step SameSecond history
  by_cases fills : Fills codec filter full s d.payload
  · simp [fills, List.mem_append, or_imp, forall_and, and_assoc]
  · rw [if_neg fills]
    split
    · simp [fills, List.mem_append, or_imp, forall_and]
    · simp [fills]

variable (filter header full) in
/-- The archiver's run over a subscription. -/
def run (compressed : Bool) (setup : Nat) (deliveries : List Delivery) : Recording :=
  Run.runFrom (step codec filter header full) (start codec header compressed setup) deliveries

theorem described_run_iff {args : Args} {created : UInt64}
    (built : header.val = args.header created) (compressed : Bool) (setup : Nat)
    (deliveries : List Delivery) :
    let s := run filter header full compressed setup deliveries
    Described codec args none (s.files codec) s.history ↔
      setup = 0 ∧ Run.Along (step codec filter header full) (SameSecond filter header full)
        (start codec header compressed setup) deliveries := by
  intro s
  have kept : Kept header s :=
    Run.runFrom_preserves _ (fun _ d kept => kept.step d) (kept_start compressed setup) deliveries
  obtain ⟨parts, last, wrote⟩ := kept.wrote
  have stored : List.Forall₂ (Stored codec header) (s.files codec) (parts ++ [last]) :=
    List.rel_append wrote.closed (.cons ⟨_, rfl, wrote.current⟩ .nil)
  have length : (s.files codec).length = s.history.length := by
    simp [files, history, kept.count]
  have order : ((none : Option Life).toList ++ s.history).IsChain Follows := kept.order
  have second : created = header.val.created := by
    rw [built]
    rfl
  rw [described_iff built stored length order, second]
  have opened := Run.holds_iff_along (P := fun s : Recording =>
      ∀ life ∈ s.history, life.opened = header.val.created.toNat) (step codec filter header full)
    opened_step deliveries (start codec header compressed setup)
  refine opened.trans (and_congr_left fun _ => ?_)
  simp [history, start]

end Recording

namespace Recording

/-- The clock takes no part in what is written. -/
theorem run_archiver (filter : Filter) (header : codec.Header) (full : Nat → ArchiveFile → Bool)
    (deliveries : List Delivery) :
    ∀ s : Recording, (Run.runFrom (step codec filter header full) s deliveries).archiver =
      (deliveries.map Delivery.payload).foldl (Archiver.step codec filter header full)
        s.archiver := by
  induction deliveries with
  | nil => exact fun _ => rfl
  | cons d rest ih =>
      intro s
      rw [Run.runFrom_cons, ih, List.map_cons, List.foldl_cons]
      unfold step
      split
      · rfl
      · split <;> rfl

variable (codec) in
/-- The program's run with its arguments. -/
def main (args : Args) (header : codec.Header) (compressedBytes : List UInt8 → Nat) (setup : Nat)
    (deliveries : List Delivery) : Recording :=
  run (.ofArgs args) header (fun _ file => file.needsRotation compressedBytes args.maxFileSize)
    (args.compressionLevel ≠ 0) setup deliveries

theorem main_files {args : Args} {created : UInt64} (level : args.compressionLevel ≤ 22)
    {header : codec.Header} (built : header.val = args.header created)
    (compressedBytes : List UInt8 → Nat) (setup : Nat) (deliveries : List Delivery) :
    Archiver.main codec args created compressedBytes (deliveries.map Delivery.payload) =
      some ((main codec args header compressedBytes setup deliveries).files codec) := by
  obtain ⟨_, fits⟩ := header
  subst built
  unfold Archiver.main files main run
  rw [run_archiver]
  exact (if_neg (Nat.not_lt.mpr level)).trans (dif_pos fits)

end Recording

/-- The files of a run begin with headers that describe them exactly if all of them are opened in
    the second in which the archiver built the one header. -/
theorem main_described_iff (codec : ArchiveCodec H) (args : Args) (created : UInt64)
    (header : codec.Header) (built : header.val = args.header created)
    (compressedBytes : List UInt8 → Nat) (setup : Nat) (deliveries : List Delivery) :
    let s := Recording.main codec args header compressedBytes setup deliveries
    let full := fun (_ : Nat) (file : ArchiveFile) =>
      file.needsRotation compressedBytes args.maxFileSize
    Described codec args none (s.files codec) s.history ↔
      setup = 0 ∧ Run.Along (Recording.step codec (.ofArgs args) header full)
        (Recording.SameSecond (.ofArgs args) header full)
        (Recording.start codec header (args.compressionLevel ≠ 0) setup) deliveries :=
  Recording.described_run_iff built _ setup deliveries

namespace Hourly

def args : Args where
  network := "regtest"
  maxFileSize := 1
  compressionLevel := 0
  pingRtt := true
  blockAnnouncements := false
  addressAnnouncements := false
  connectionResults := false
  handshakes := false
  compactBlockProbes := false
  feeFilters := false
  sendCmpcts := false

theorem built : pingHeader.val = args.header 1700000000 := rfl

/-- A ping in the first second. -/
def soon : Delivery := ⟨quickPing, 0, 0⟩

/-- A ping after an hour. -/
def late : Delivery := ⟨laterPing, 3600, 0⟩

end Hourly

/-- Two files, both opened when the header says. -/
theorem main_described_iff_soon :
    let s := Recording.main pingCodec Hourly.args pingHeader List.length 0 [Hourly.soon]
    Described pingCodec Hourly.args none (s.files pingCodec) s.history :=
  (main_described_iff pingCodec Hourly.args 1700000000 pingHeader Hourly.built List.length 0
    [Hourly.soon]).mpr ⟨rfl, fun _ => rfl, trivial⟩

/-- The second file is opened after an hour and says it was opened when the first was. -/
theorem stale_header :
    let s := Recording.main pingCodec Hourly.args pingHeader List.length 0 [Hourly.late]
    ¬ Described pingCodec Hourly.args none (s.files pingCodec) s.history := by
  intro s described
  obtain ⟨-, same, -⟩ := (Recording.described_run_iff Hourly.built _ 0 [Hourly.late]).mp described
  have fills : Recording.Fills pingCodec (.ofArgs Hourly.args)
      (fun _ file => file.needsRotation List.length Hourly.args.maxFileSize)
      (Recording.start pingCodec pingHeader (Hourly.args.compressionLevel ≠ 0) 0)
      Hourly.late.payload := by
    have accepted : Archiver.accepted pingCodec (.ofArgs Hourly.args) Hourly.late.payload =
        some (pinged 45) := Option.filter_eq_some_iff.mpr ⟨readPing_laterPing, rfl⟩
    refine ⟨by rw [accepted]; rfl, decide_eq_true (?_ : 1 ≤ _ + _)⟩
    have long : 1 ≤ (ArchiveFile.record pingCodec Hourly.late.payload).length := by
      simp [ArchiveFile.record, Hourly.late, laterPing]
    omega
  exact absurd (same fills) (by decide)

end P2PObserver
