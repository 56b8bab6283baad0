import P2PObserver.Addresses.Pick

/-! # A pick, end to end

What comes out of each pool, and what the pick leaves in the book. An address taken belongs
to the pool its entry is offered to, so counting the addresses of a pool counts what was
taken from it.
-/

namespace P2PObserver

namespace Book

/-- Whether an address's entry is offered to a pool. -/
def offeredTo (book : Book) (p : Pool) (dial : Dial) : Bool :=
  (book.entry dial.addr).any (·.pool = p)

/-- How many of some dials are offered to a pool. -/
def taken (book : Book) (dials : List Dial) (p : Pool) : Nat := dials.countP (book.offeredTo p)

theorem taken_append (book : Book) (first second : List Dial) (p : Pool) :
    book.taken (first ++ second) p = book.taken first p + book.taken second p :=
  List.countP_append

/-- What a pick returns and what it leaves behind. -/
structure Picked [AddrText] (book : Book) (now : UInt32) (budget : Nat) (nets : EnabledNets)
    (banlist : Banlist) (dials : List Dial) (after : Book) : Prop where
  distinct : (dials.map Dial.addr).Nodup
  eligible : ∀ d ∈ dials, ∃ e, book.entry d.addr = some e ∧ d.transport = e.transport ∧
    book.active.lookup d.addr = none ∧ e.nextAttempt ≤ now ∧ nets.allows d.addr.net ∧
      banlist.contains d.addr = false
  manual : book.taken dials .manual ≤ budget
  reconnect : book.taken dials .reconnect ≤ MAX_RECONNECTS_PER_TICK
  shared : Share.total (fun s => book.taken dials (.share s)) =
    min budget (Share.total fun s => min budget (book.waiting now nets banlist (.share s)))
  within : ∀ p, book.taken dials p ≤ book.waiting now nets banlist p
  active : ∀ addr, after.active.lookup addr =
    if addr ∈ dials.map Dial.addr then some .dialing else book.active.lookup addr
  entries : ∀ addr, after.entry addr =
    if addr ∈ dials.map Dial.addr then
      (book.entry addr).map fun e => { e with lastAttempt := now }
    else book.entry addr

section Pools

variable [AddrText] (book : Book) (now : UInt32) (budget : Nat) (nets : EnabledNets)
  (banlist : Banlist)

/-- A pool holds dials of entries that are offered to it. -/
theorem pool_entry {p : Pool} {dial : Dial}
    (member : dial ∈ ((book.pickPools now budget nets banlist).pool p).items) :
    ∃ e, book.entry dial.addr = some e ∧ e.pool = p := by
  have filled := pools_filled budget book.rng (book.dueEntries now nets banlist) p
  obtain ⟨⟨addr, e⟩, offered, rfl⟩ := List.mem_map.mp (filled.items.subset member)
  obtain ⟨isDue, own⟩ := List.mem_filter.mp offered
  have stored := List.mem_of_mem_filter isDue
  exact ⟨e, HashMap.mem_entries_iff.mp stored, by simpa using own⟩

/-- What comes out of one pool counts for that pool only. -/
theorem taken_pool {p : Pool} {dials : List Dial}
    (from_pool : dials ⊆ ((book.pickPools now budget nets banlist).pool p).items) (q : Pool) :
    book.taken dials q = if p = q then dials.length else 0 := by
  have own : ∀ d ∈ dials, book.offeredTo q d = decide (p = q) := by
    intro d member
    obtain ⟨e, stored, rfl⟩ := pool_entry book now budget nets banlist (from_pool member)
    simp [offeredTo, stored]
  unfold taken
  split
  · rename_i same
    exact List.countP_eq_length.mpr fun d member => by simp [own d member, same]
  · rename_i other
    exact List.countP_eq_zero.mpr fun d member => by simp [own d member, other]

theorem pick_pools :
    (book.pick now budget nets banlist).1 =
      ((book.pickPools now budget nets banlist).pool .manual).items ++
        ((book.pickPools now budget nets banlist).pool .reconnect).items ++
        Share.all.flatMap fun s =>
          ((book.pickPools now budget nets banlist).pool (.share s)).items.take
            (book.shares now budget nets banlist s) := rfl

/-- The shares come to the whole budget, unless the classes have less. -/
theorem shares_spec :
    (∀ s, book.shares now budget nets banlist s ≤
        min budget (book.waiting now nets banlist (.share s))) ∧
      Share.total (book.shares now budget nets banlist) =
        min budget (Share.total fun s => min budget (book.waiting now nets banlist (.share s))) := by
  have lengths (s : Share) := pickPools_length book now budget nets banlist (.share s)
  simp only [Pools.pool, Pools.new, Reservoir.new_k] at lengths
  have shared := allocate_spec { book with
    rng := (fillPools (.new budget) book.rng (book.dueEntries now nets banlist)).2 } budget
    fun s => ((book.pickPools now budget nets banlist).byClass s).items.length
  rw [← shares] at shared
  simp only [lengths] at shared
  exact shared

/-- What a pick takes from each pool. -/
theorem taken_pick (p : Pool) :
    book.taken (book.pick now budget nets banlist).1 p =
      match p with
      | .manual => min budget (book.waiting now nets banlist .manual)
      | .reconnect => min MAX_RECONNECTS_PER_TICK (book.waiting now nets banlist .reconnect)
      | .share s => book.shares now budget nets banlist s := by
  have lengths := pickPools_length book now budget nets banlist
  obtain ⟨below, -⟩ := shares_spec book now budget nets banlist
  have share (s : Share) := taken_pool book now budget nets banlist (p := .share s)
    (List.take_subset (book.shares now budget nets banlist s) _) p
  have room (s : Share) : (((book.pickPools now budget nets banlist).pool (.share s)).items.take
      (book.shares now budget nets banlist s)).length = book.shares now budget nets banlist s :=
    List.length_take_of_le ((below s).trans_eq (lengths (.share s)).symm)
  simp only [room] at share
  rw [pick_pools]
  simp only [Share.all, List.flatMap_cons, List.flatMap_nil, List.append_nil, taken_append, share]
  rw [taken_pool book now budget nets banlist (p := .manual) (List.Subset.refl _),
    taken_pool book now budget nets banlist (p := .reconnect) (List.Subset.refl _),
    lengths, lengths]
  cases p with
  | manual => simp [Pools.pool, Pools.new]
  | reconnect => simp [Pools.pool, Pools.new]
  | share s => cases s <;> simp

end Pools

/-! ## Entries after the pick -/

/-- Marking addresses writes the time of the attempt into their entries only. -/
theorem recordAll_entry (now : UInt32) (addr : PeerAddr) (dials : List Dial) : ∀ book : Book,
    (dials.foldl (fun book d => book.recordDialing d.addr now) book).entry addr =
      if addr ∈ dials.map Dial.addr then
        (book.entry addr).map fun e => { e with lastAttempt := now }
      else book.entry addr := by
  induction dials with
  | nil =>
      intro book
      rfl
  | cons d dials ih =>
      intro book
      have step : (book.recordDialing d.addr now).entry addr =
          if addr = d.addr then (book.entry addr).map fun e => { e with lastAttempt := now }
          else book.entry addr := HashMap.lookup_modify
      rw [List.foldl_cons, ih, step]
      cases book.entry addr <;> grind

/-- A pick takes due entries of distinct addresses, as many from each pool as its limit and
    its candidates allow, and marks exactly those. -/
theorem pick_picked [AddrText] (book : Book) (now : UInt32) (budget : Nat) (nets : EnabledNets)
    (banlist : Banlist) :
    book.Picked now budget nets banlist (book.pick now budget nets banlist).1
      (book.pick now budget nets banlist).2 := by
  have from_pool := taken_pick book now budget nets banlist
  obtain ⟨below, total⟩ := shares_spec book now budget nets banlist
  constructor
  case distinct => exact pick_nodup ..
  case eligible =>
    intro d member
    obtain ⟨e, stored, transport, isDue⟩ := pick_due member
    simp only [due, Bool.and_eq_true, Bool.not_eq_true', Option.isSome_eq_false_iff,
      Option.isNone_iff_eq_none, decide_eq_false_iff_not] at isDue
    obtain ⟨⟨⟨inactive, ready⟩, enabled⟩, allowed⟩ := isDue
    exact ⟨e, stored, transport.symm, inactive, UInt32.not_lt.mp ready, enabled, allowed⟩
  case manual =>
    rw [from_pool]
    exact Nat.min_le_left ..
  case reconnect =>
    rw [from_pool]
    exact Nat.min_le_left ..
  case shared =>
    simp only [from_pool]
    exact total
  case within =>
    intro p
    rw [from_pool]
    cases p with
    | manual => exact Nat.min_le_right ..
    | reconnect => exact Nat.min_le_right ..
    | share s => exact (below s).trans (Nat.min_le_right ..)
  case active =>
    intro addr
    exact pick_lookup book now budget nets banlist addr
  case entries =>
    intro addr
    obtain ⟨base, entries, -, eq⟩ := pick_snd book now budget nets banlist
    rw [eq, recordAll_entry, Book.entry, entries]
    rfl

end Book

end P2PObserver
