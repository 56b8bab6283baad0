import P2PObserver.Addresses.Book

/-! # What the pick takes

Every due entry is offered to one pool; the pick takes a number from each that the pools'
sizes and the budget fix, whatever the carried credit and the random draws are.
-/

namespace P2PObserver

/-- The pools of a pick. -/
inductive Pool where
  | manual
  | reconnect
  | share (s : Share)
  deriving DecidableEq

def Pool.all : List Pool := .manual :: .reconnect :: Share.all.map .share

/-- The pool a due entry is offered to. -/
def Entry.pool (e : Entry) : Pool :=
  if e.origin = .manual then .manual
  else
    match e.classOf with
    | .good => .reconnect
    | .unknown => .share .unknown
    | .wasGood => .share .wasGood
    | .bad => .share .bad

/-- The dial an entry stands for. -/
def dialOf (e : Sigma fun _ : PeerAddr => Entry) : Dial := { addr := e.1, transport := e.2.transport }

theorem Pool.mem_all (p : Pool) : p ∈ Pool.all := by
  cases p with
  | manual => decide
  | reconnect => decide
  | share s => cases s <;> decide

/-- The sum over the classes that share the budget. -/
def Share.total (f : Share → Nat) : Nat := f .unknown + f .wasGood + f .bad

namespace Book

/-! ## Filling the pools -/

def Pools.pool (pools : Pools) : Pool → Reservoir Dial
  | .manual => pools.manual
  | .reconnect => pools.reconnect
  | .share s => pools.byClass s

/-- Offering an entry changes its own pool only. -/
theorem Pools.offer_pool (pools : Pools) (rng : Rng) (addr : PeerAddr) (e : Entry) (p : Pool) :
    (pools.offer rng addr e).1.pool p =
      if p = e.pool then
        ((pools.pool p).offer Rng.below rng { addr, transport := e.transport }).1
      else pools.pool p := by
  unfold Pools.offer Entry.pool
  by_cases manual : e.origin = .manual
  · cases p <;> simp [manual, Pools.pool]
  · cases e.classOf <;> cases p <;> simp only [manual, Pools.pool] <;> grind

/-- What the pools hold when they have seen some entries. -/
def Filled (pools : Pools) (entries : List (Sigma fun _ : PeerAddr => Entry)) : Prop :=
  ∀ p, (pools.pool p).Samples ((entries.filter (·.2.pool = p)).map dialOf)

theorem new_filled (budget : Nat) : Filled (.new budget) [] := by
  intro p
  cases p <;> exact Reservoir.new_samples _

theorem Filled.offer {pools : Pools} {entries : List (Sigma fun _ : PeerAddr => Entry)}
    (F : Filled pools entries) (rng : Rng) (e : Sigma fun _ : PeerAddr => Entry) :
    Filled (pools.offer rng e.1 e.2).1 (e :: entries) := by
  intro p
  rw [Pools.offer_pool]
  by_cases own : p = e.2.pool
  · rw [if_pos own, List.filter_cons_of_pos (by simp [own]), List.map_cons]
    exact (F p).offer Rng.below rng (dialOf e)
  · rw [if_neg own, List.filter_cons_of_neg (by simpa using Ne.symm own)]
    exact F p

theorem fillPools_filled (entries : List (Sigma fun _ : PeerAddr => Entry)) :
    ∀ (pools : Pools) (rng : Rng) (before : List (Sigma fun _ : PeerAddr => Entry)),
      Filled pools before → Filled (fillPools pools rng entries).1 (entries.reverse ++ before) := by
  induction entries with
  | nil =>
      intro pools rng before F
      exact F
  | cons e entries ih =>
      intro pools rng before F
      rw [List.reverse_cons, List.append_assoc]
      exact ih _ _ _ (F.offer rng e)

theorem fillPools_k (entries : List (Sigma fun _ : PeerAddr => Entry)) (p : Pool) :
    ∀ (pools : Pools) (rng : Rng),
      ((fillPools pools rng entries).1.pool p).k = (pools.pool p).k := by
  induction entries with
  | nil => intros; rfl
  | cons e entries ih =>
      intro pools rng
      have step : ((pools.offer rng e.1 e.2).1.pool p).k = (pools.pool p).k := by
        rw [Pools.offer_pool]
        split
        · exact Reservoir.offer_k ..
        · rfl
      exact (ih _ _).trans step

/-- The pools of a pick sample the due entries. -/
theorem pools_filled (budget : Nat) (rng : Rng) (entries : List (Sigma fun _ : PeerAddr => Entry)) :
    Filled (fillPools (.new budget) rng entries).1 entries := by
  intro p
  have filled := fillPools_filled entries (.new budget) rng [] (new_filled budget) p
  rw [List.append_nil] at filled
  exact filled.perm (((entries.reverse_perm).filter _).map _)

/-! ## Sharing the budget -/

theorem mostOwed_none {credit : Share → Float32} {take available : Share → Nat}
    (nothing : mostOwed credit take available = none) : ∀ s, available s ≤ take s := by
  simp only [mostOwed, Share.all, List.foldl_cons, List.foldl_nil] at nothing
  intro s
  cases s <;> grind

theorem mostOwed_some {credit : Share → Float32} {take available : Share → Nat} {i : Share}
    (found : mostOwed credit take available = some i) : take i < available i := by
  simp only [mostOwed, Share.all, List.foldl_cons, List.foldl_nil] at found
  grind

/-- The slots go out until they or the candidates run out, whatever the credit is. -/
theorem handOut_spec (available : Share → Nat) (slots : Nat) :
    ∀ (take : Share → Nat) (credit : Share → Float32), (∀ s, take s ≤ available s) →
      (∀ s, (handOut available slots take credit).1 s ≤ available s) ∧
        Share.total (handOut available slots take credit).1 =
          min (Share.total take + slots) (Share.total available) := by
  induction slots with
  | zero =>
      intro take credit within
      refine ⟨within, ?_⟩
      have := within .unknown
      have := within .wasGood
      have := within .bad
      simp only [handOut, Share.total]
      omega
  | succ slots ih =>
      intro take credit within
      have le₁ := within .unknown
      have le₂ := within .wasGood
      have le₃ := within .bad
      unfold handOut
      cases owed : mostOwed credit take available with
      | none =>
          have spent := mostOwed_none owed
          have := spent .unknown
          have := spent .wasGood
          have := spent .bad
          refine ⟨within, ?_⟩
          simp only [Share.total]
          omega
      | some i =>
          have room := mostOwed_some owed
          obtain ⟨below, total⟩ := ih (fun s => if s = i then take s + 1 else take s)
            (fun s => if s = i then max (credit s - 1.0) (-CREDIT_CAP) else credit s) (by grind)
          refine ⟨below, total.trans ?_⟩
          simp only [Share.total]
          cases i <;> simp <;> omega

theorem allocate_spec (book : Book) (budget : Nat) (available : Share → Nat) :
    (∀ s, (book.allocate budget available).1 s ≤ available s) ∧
      Share.total (book.allocate budget available).1 = min budget (Share.total available) := by
  obtain ⟨below, total⟩ := handOut_spec available budget (fun _ => 0)
    (fun s => min (book.credit s + s.weight /
      (Share.unknown.weight + Share.wasGood.weight + Share.bad.weight) *
        Float32.ofNat budget) CREDIT_CAP) (fun s => Nat.zero_le _)
  refine ⟨below, total.trans ?_⟩
  simp [Share.total]

/-! ## The pick -/

variable [AddrText] (book : Book) (now : UInt32) (budget : Nat) (nets : EnabledNets)
  (banlist : Banlist)

/-- The entries that may be dialled now. -/
def dueEntries : List (Sigma fun _ : PeerAddr => Entry) :=
  book.entries.entries.filter (due book.active now nets banlist)

/-- How many due entries are offered to a pool. -/
def waiting (p : Pool) : Nat := (book.dueEntries now nets banlist).countP (·.2.pool = p)

/-- How many addresses a pick with this budget takes. -/
def pickSize : Nat :=
  min budget (book.waiting now nets banlist .manual) +
    min MAX_RECONNECTS_PER_TICK (book.waiting now nets banlist .reconnect) +
    min budget (Share.total fun s => book.waiting now nets banlist (.share s))

/-- The pools once every due entry has been offered. -/
def pickPools : Pools :=
  (fillPools (.new budget) book.rng (book.dueEntries now nets banlist)).1

theorem pickPools_length (p : Pool) :
    ((book.pickPools now budget nets banlist).pool p).items.length =
      min ((Pools.new budget).pool p).k (book.waiting now nets banlist p) := by
  have filled := pools_filled budget book.rng (book.dueEntries now nets banlist) p
  rw [pickPools, filled.length, fillPools_k, List.length_map, waiting, List.countP_eq_length_filter]

/-- The shares a pick takes of the classes. -/
def shares : Share → Nat :=
  (({ book with rng := (fillPools (.new budget) book.rng
      (book.dueEntries now nets banlist)).2 } : Book).allocate budget
    fun s => ((book.pickPools now budget nets banlist).byClass s).items.length).1

theorem pick_fst :
    (book.pick now budget nets banlist).1 =
      (book.pickPools now budget nets banlist).manual.items ++
        (book.pickPools now budget nets banlist).reconnect.items ++
        Share.all.flatMap fun s => ((book.pickPools now budget nets banlist).byClass s).items.take
          (book.shares now budget nets banlist s) := rfl

/-- The addresses taken are due entries, each at most once. -/
theorem pick_subperm :
    (book.pick now budget nets banlist).1.Subperm
      ((book.dueEntries now nets banlist).map dialOf) := by
  have all : (Pool.all.flatMap fun p => ((book.pickPools now budget nets banlist).pool p).items).Subperm
      ((book.dueEntries now nets banlist).map dialOf) :=
    Reservoir.subperm_classes (f := dialOf) (fun e : Sigma fun _ : PeerAddr => Entry => e.2.pool)
      (by decide) (fun e _ => e.2.pool.mem_all)
      (pools_filled budget book.rng (book.dueEntries now nets banlist))
  refine List.Subperm.trans (List.Sublist.subperm ?_) all
  rw [pick_fst]
  simp only [Pool.all, Share.all, List.map_cons, List.map_nil, List.flatMap_cons,
    List.flatMap_nil, List.append_nil, List.append_assoc, Pools.pool]
  exact (List.Sublist.refl _).append ((List.Sublist.refl _).append
    ((List.take_sublist ..).append ((List.take_sublist ..).append (List.take_sublist ..))))

/-- The number of addresses taken does not depend on credit, draws or iteration order. -/
theorem pick_length :
    (book.pick now budget nets banlist).1.length = book.pickSize now budget nets banlist := by
  obtain ⟨below, total⟩ := allocate_spec { book with
    rng := (fillPools (.new budget) book.rng (book.dueEntries now nets banlist)).2 } budget
    fun s => ((book.pickPools now budget nets banlist).byClass s).items.length
  have lengths := pickPools_length book now budget nets banlist
  have manual := lengths .manual
  have reconnect := lengths .reconnect
  have unknown := lengths (.share .unknown)
  have wasGood := lengths (.share .wasGood)
  have bad := lengths (.share .bad)
  have := below .unknown
  have := below .wasGood
  have := below .bad
  rw [pick_fst, pickSize]
  simp only [Share.total, Share.all, List.flatMap_cons, List.flatMap_nil, List.length_append,
    List.length_take, List.length_nil, Pools.pool, Pools.new, Reservoir.new_k, shares] at *
  omega

/-- No address is taken twice. -/
theorem pick_nodup : ((book.pick now budget nets banlist).1.map Dial.addr).Nodup := by
  have distinct : ((book.dueEntries now nets banlist).map fun e => e.1).Nodup :=
    book.entries.nodupKeys.sublist List.filter_sublist
  obtain ⟨taken, perm, sub⟩ := pick_subperm book now budget nets banlist
  rw [← (perm.map Dial.addr).nodup_iff]
  have inside := sub.map Dial.addr
  rw [List.map_map] at inside
  exact distinct.sublist inside

variable {book now budget nets banlist}

/-- Whatever is taken has an entry that is due. -/
theorem pick_due {dial : Dial} (taken : dial ∈ (book.pick now budget nets banlist).1) :
    ∃ e, book.entries.lookup dial.addr = some e ∧ e.transport = dial.transport ∧
      due book.active now nets banlist ⟨dial.addr, e⟩ = true := by
  obtain ⟨⟨addr, e⟩, member, rfl⟩ := List.mem_map.mp ((pick_subperm ..).subset taken)
  obtain ⟨stored, isDue⟩ := List.mem_filter.mp member
  exact ⟨e, HashMap.mem_entries_iff.mp stored, rfl, isDue⟩

theorem pick_inactive {dial : Dial} (taken : dial ∈ (book.pick now budget nets banlist).1) :
    book.active.lookup dial.addr = none := by
  obtain ⟨e, -, -, isDue⟩ := pick_due taken
  simp only [due, Bool.and_eq_true, Bool.not_eq_true', Option.isSome_eq_false_iff,
    Option.isNone_iff_eq_none] at isDue
  exact isDue.1.1.1

/-! ## After the pick -/

omit [AddrText]

theorem recordDialing_lookup (addr a : PeerAddr) :
    (book.recordDialing addr now).active.lookup a =
      if a = addr then some .dialing else book.active.lookup a := by
  unfold recordDialing
  by_cases same : a = addr
  · rw [if_pos same, same, AList.lookup_insert]
  · rw [if_neg same, AList.lookup_insert_ne same]

theorem dialingCount_recordDialing {addr : PeerAddr} (fresh : book.active.lookup addr = none) :
    (book.recordDialing addr now).dialingCount = book.dialingCount + 1 := by
  have absent : addr ∉ book.active := AList.lookup_eq_none.mp fresh
  rw [dialingCount, countPhase, recordDialing, AList.entries_insert_of_notMem absent]
  simp [dialingCount, countPhase]

/-- Marking distinct idle addresses marks exactly them. -/
theorem recordAll_spec (dials : List Dial) :
    ∀ book : Book, (dials.map Dial.addr).Nodup → (∀ d ∈ dials, book.active.lookup d.addr = none) →
      (∀ a, (dials.foldl (fun book d => book.recordDialing d.addr now) book).active.lookup a =
        if a ∈ dials.map Dial.addr then some .dialing else book.active.lookup a) ∧
      (dials.foldl (fun book d => book.recordDialing d.addr now) book).dialingCount =
        book.dialingCount + dials.length := by
  induction dials with
  | nil => simp
  | cons d dials ih =>
      intro book distinct idle
      obtain ⟨fresh, distinct⟩ := List.nodup_cons.mp distinct
      have idle' : ∀ d' ∈ dials, (book.recordDialing d.addr now).active.lookup d'.addr = none := by
        intro d' member
        have other : d'.addr ≠ d.addr := by
          intro same
          exact fresh (same ▸ List.mem_map_of_mem member)
        rw [recordDialing_lookup, if_neg other]
        exact idle d' (List.mem_cons_of_mem d member)
      obtain ⟨lookups, count⟩ := ih (book.recordDialing d.addr now) distinct idle'
      constructor
      · intro a
        rw [List.foldl_cons, lookups, recordDialing_lookup]
        grind
      · rw [List.foldl_cons, count, dialingCount_recordDialing (idle d List.mem_cons_self),
          List.length_cons]
        omega

variable [AddrText] (book now budget nets banlist)

/-- Besides the credit and the draws, a pick only marks what it takes. -/
theorem pick_snd :
    ∃ base : Book, base.entries = book.entries ∧ base.active = book.active ∧
      (book.pick now budget nets banlist).2 = (book.pick now budget nets banlist).1.foldl
        (fun b d => b.recordDialing d.addr now) base := by
  let filled := fillPools (.new budget) book.rng (book.dueEntries now nets banlist)
  exact ⟨({ book with rng := filled.2 }.allocate budget
    fun s => (filled.1.byClass s).items.length).2, rfl, rfl, rfl⟩

/-- The addresses of a pick are dialing afterwards, the others as they were. -/
theorem pick_lookup (a : PeerAddr) :
    (book.pick now budget nets banlist).2.active.lookup a =
      if a ∈ (book.pick now budget nets banlist).1.map Dial.addr then some .dialing
      else book.active.lookup a := by
  obtain ⟨base, -, active, eq⟩ := pick_snd book now budget nets banlist
  rw [eq, ← active]
  refine (recordAll_spec _ base (pick_nodup ..) fun d taken => ?_).1 a
  rw [active]
  exact pick_inactive taken

theorem dialingCount_pick :
    (book.pick now budget nets banlist).2.dialingCount =
      book.dialingCount + book.pickSize now budget nets banlist := by
  obtain ⟨base, -, active, eq⟩ := pick_snd book now budget nets banlist
  have count : base.dialingCount = book.dialingCount := by
    rw [dialingCount, countPhase, active]
    rfl
  rw [eq, ← pick_length, ← count]
  refine (recordAll_spec _ base (pick_nodup ..) fun d taken => ?_).2
  rw [active]
  exact pick_inactive taken

end Book

end P2PObserver
