import P2PObserver.Addresses.Active

/-! # What gossip may push out of the book

An eviction removes the first addresses past their forget rule that its walk meets, and makes
up what is left of the batch from addresses never tried. So it never reaches an entry that
answers to neither description, and a full batch of the first kind leaves the second alone.
-/

namespace P2PObserver

/-- What a walk finds past its forget rule and free to go. -/
def pastForget (active : HashMap PeerAddr Phase) (now : UInt32)
    (e : Sigma fun _ : PeerAddr => Entry) : Bool :=
  e.2.origin ≠ .manual && !(active.lookup e.1).isSome && e.2.forgettable now

/-- What a walk finds untried and free to go. -/
def untried (active : HashMap PeerAddr Phase) (e : Sigma fun _ : PeerAddr => Entry) : Bool :=
  e.2.origin ≠ .manual && !(active.lookup e.1).isSome && e.2.classOf = .unknown

namespace Entry

/-- A success recent enough to be worth another attempt. -/
def RecentSuccess (e : Entry) (now : UInt32) : Prop :=
  0 < e.lastSuccess ∧ saturatingSub now e.lastSuccess ≤ WAS_GOOD_FORGET_AFTER_SECS

/-- The same entry, but for what gossip refreshes. -/
def SameRecord (e e' : Entry) : Prop :=
  e' = { e with
    lastAnnounced := e'.lastAnnounced, services := e'.services, transport := e'.transport }

theorem RecentSuccess.kept {e : Entry} {now : UInt32} (recent : e.RecentSuccess now) :
    e.forgettable now = false ∧ e.classOf ≠ .unknown := by
  obtain ⟨reached, within⟩ := recent
  constructor
  · unfold forgettable shouldForget
    rw [if_pos reached]
    split
    · rfl
    · simpa using within
  · unfold classOf classify
    rw [if_pos reached]
    split <;> simp

/-- An entry that was never tried has no failures to be forgotten for. -/
theorem forgettable_unknown {e : Entry} (now : UInt32) (unknown : e.classOf = .unknown) :
    e.forgettable now = false := by
  unfold classOf classify at unknown
  unfold forgettable shouldForget
  split at unknown
  · split at unknown <;> cases unknown
  · rename_i never
    split at unknown
    · cases unknown
    · rename_i untried
      have unfailed : e.failures = 0 := by
        simp only [decide_eq_true_eq, UInt8.not_lt] at untried
        exact UInt8.le_antisymm untried (UInt8.zero_le)
      rw [if_neg never, unfailed]
      split <;> rfl

theorem SameRecord.refl (e : Entry) : e.SameRecord e := rfl

theorem SameRecord.trans {e e' e'' : Entry} (first : e.SameRecord e') (second : e'.SameRecord e'') :
    e.SameRecord e'' := by
  unfold SameRecord at *
  rw [second, first]

theorem SameRecord.classOf {e e' : Entry} (same : e.SameRecord e') : e'.classOf = e.classOf := by
  rw [same]
  rfl

end Entry

namespace Book

/-- What no eviction may remove. -/
def Protected (book : Book) (now : UInt32) (addr : PeerAddr) (e : Entry) : Prop :=
  e.origin = .manual ∨ (book.active.lookup addr).isSome ∨ e.RecentSuccess now ∨
    e.classOf = .bad ∧ e.forgettable now = false

/-- How many entries one eviction may remove. -/
def evictionBatch (book : Book) : Nat :=
  max (min EVICTION_BATCH (book.capacity / EVICTION_BATCH_SHARE)) 1

/-- The addresses the walk of an eviction finds past their forget rule. -/
def forgotten (book : Book) (now : UInt32) : List PeerAddr :=
  (victims book.active now book.evictionBatch book.entries.entries []
    (Reservoir.new book.evictionBatch) book.rng).1

/-- The untried addresses it samples. -/
def sampled (book : Book) (now : UInt32) : Reservoir Dial :=
  (victims book.active now book.evictionBatch book.entries.entries []
    (Reservoir.new book.evictionBatch) book.rng).2.1

/-- How many entries are gone once the forgotten ones are. -/
def forgottenCount (book : Book) (now : UInt32) : Nat :=
  (removeAll book.entries (book.forgotten now)).2

/-! ## The walk -/

section Walk

variable (active : HashMap PeerAddr Phase) (now : UInt32) (batch : Nat)

/-- The walk stops at the entry that fills the batch. -/
theorem victims_forgettable (entries : List (Sigma fun _ : PeerAddr => Entry)) :
    ∀ (found : List PeerAddr) (unknown : Reservoir Dial) (rng : Rng), found.length < batch →
      (victims active now batch entries found unknown rng).1 =
        found ++ ((entries.filter (pastForget active now)).map Sigma.fst).take
          (batch - found.length) := by
  induction entries with
  | nil => simp [victims]
  | cons e entries ih =>
      intro found unknown rng room
      obtain ⟨addr, e⟩ := e
      unfold victims
      by_cases skip : e.origin = .manual ∨ (active.lookup addr).isSome
      · have out : pastForget active now ⟨addr, e⟩ = false := by
          rcases skip with manual | busy <;> simp_all [pastForget]
        rw [if_pos skip, List.filter_cons_of_neg (by simp [out])]
        exact ih found unknown rng room
      rw [if_neg skip]
      rw [not_or, Bool.not_eq_true] at skip
      by_cases past : e.forgettable now = true
      · have inside : pastForget active now ⟨addr, e⟩ = true := by
          simp [pastForget, skip.1, skip.2, past]
        rw [if_pos past, List.filter_cons_of_pos inside, List.map_cons, List.length_append,
          List.length_singleton]
        have slot : batch - found.length = batch - (found.length + 1) + 1 := by omega
        rw [slot, List.take_succ_cons]
        split
        · rename_i full
          rw [Nat.sub_eq_zero_of_le full, List.take_zero]
        · rename_i more
          rw [ih _ _ _ (by simpa using more), List.length_append, List.length_singleton,
            List.append_assoc, List.singleton_append]
      · have out : pastForget active now ⟨addr, e⟩ = false := by simp [pastForget, past]
        rw [if_neg past, List.filter_cons_of_neg (by simp [out])]
        split
        · exact ih _ _ _ room
        · exact ih _ _ _ room

/-- The walk samples untried entries only. -/
theorem victims_unknown (entries : List (Sigma fun _ : PeerAddr => Entry)) :
    ∀ (found : List PeerAddr) (unknown : Reservoir Dial) (rng : Rng) (stream : List Dial),
      unknown.Samples stream →
      ∃ offered : List Dial,
        (victims active now batch entries found unknown rng).2.1.Samples offered ∧
        ∀ dial ∈ offered, dial ∈ stream ∨ ∃ e ∈ entries, untried active e = true ∧ dial.addr = e.1 := by
  induction entries with
  | nil =>
      intro found unknown rng stream S
      exact ⟨stream, S, fun dial member => .inl member⟩
  | cons e entries ih =>
      intro found unknown rng stream S
      obtain ⟨addr, e⟩ := e
      have skip (found : List PeerAddr) : ∃ offered : List Dial,
          (victims active now batch entries found unknown rng).2.1.Samples offered ∧
          ∀ dial ∈ offered, dial ∈ stream ∨
            ∃ e' ∈ (⟨addr, e⟩ :: entries : List (Sigma fun _ : PeerAddr => Entry)),
              untried active e' = true ∧ dial.addr = e'.1 := by
        obtain ⟨offered, samples, origin⟩ := ih found unknown rng stream S
        refine ⟨offered, samples, fun dial member => (origin dial member).imp_right ?_⟩
        rintro ⟨e', listed, facts⟩
        exact ⟨e', List.mem_cons_of_mem _ listed, facts⟩
      unfold victims
      split
      · exact skip found
      rename_i free
      rw [not_or, Bool.not_eq_true] at free
      split
      · split
        · exact ⟨stream, S, fun dial member => .inl member⟩
        · exact skip _
      split
      · rename_i unknown_class
        obtain ⟨offered, samples, origin⟩ := ih found _
          (unknown.offer Rng.below rng { addr, transport := .unknown }).2 _
          (S.offer Rng.below rng { addr, transport := .unknown })
        refine ⟨offered, samples, fun dial member => ?_⟩
        rcases origin dial member with earlier | ⟨e', listed, facts⟩
        · rcases List.mem_cons.mp earlier with rfl | earlier
          · right
            exact ⟨⟨addr, e⟩, List.mem_cons_self, by simp [untried, free.1, free.2, unknown_class],
              rfl⟩
          · exact .inl earlier
        · exact .inr ⟨e', List.mem_cons_of_mem _ listed, facts⟩
      · exact skip found

end Walk

/-! ## Removing -/

theorem removeAll_cons (entries : HashMap PeerAddr Entry) (addr : PeerAddr)
    (addrs : List PeerAddr) :
    removeAll entries (addr :: addrs) =
      ((removeAll (entries.erase addr) addrs).1,
        (removeAll (entries.erase addr) addrs).2 + (entries.lookup addr).isSome.toNat) := by
  have counted : ∀ (addrs : List PeerAddr) (entries : HashMap PeerAddr Entry) (n : Nat),
      addrs.foldl (fun acc addr => if (acc.1.lookup addr).isSome then
        (acc.1.erase addr, acc.2 + 1) else acc) (entries, n) =
        ((removeAll entries addrs).1, (removeAll entries addrs).2 + n) := by
    intro addrs
    induction addrs with
    | nil => simp [removeAll]
    | cons a addrs ih =>
        intro entries n
        unfold removeAll
        simp only [List.foldl_cons]
        split
        · rw [ih, ih _ (0 + 1)]
          simp only [Prod.mk.injEq, true_and]
          omega
        · exact ih entries n
  unfold removeAll
  rw [List.foldl_cons]
  dsimp only
  split
  · rename_i present
    rw [counted, present]
    simp [removeAll]
  · rename_i absent
    have same : entries.erase addr = entries := by
      apply AList.ext
      apply List.kerase_of_notMem_keys
      intro listed
      exact absent (AList.lookup_isSome.mpr (AList.mem_keys.mpr listed))
    rw [same]
    simp [absent]

theorem removeAll_lookup (addrs : List PeerAddr) (addr : PeerAddr) :
    ∀ entries : HashMap PeerAddr Entry, (removeAll entries addrs).1.lookup addr =
      if addr ∈ addrs then none else entries.lookup addr := by
  induction addrs with
  | nil =>
      intro entries
      rfl
  | cons a addrs ih =>
      intro entries
      rw [removeAll_cons, ih]
      by_cases same : addr = a
      · subst same
        simp
      · simp [same, AList.lookup_erase_ne same]

/-- Every removal is counted, and there is at most one an address. -/
theorem removeAll_size (addrs : List PeerAddr) : ∀ entries : HashMap PeerAddr Entry,
    HashMap.size (removeAll entries addrs).1 + (removeAll entries addrs).2 = HashMap.size entries ∧
      (removeAll entries addrs).2 ≤ addrs.length := by
  induction addrs with
  | nil => exact fun entries => ⟨rfl, Nat.le_refl 0⟩
  | cons a addrs ih =>
      intro entries
      obtain ⟨size, few⟩ := ih (entries.erase a)
      have erased := HashMap.size_erase entries a
      have one := (entries.lookup a).isSome.toNat_le
      rw [removeAll_cons, List.length_cons]
      constructor <;> dsimp only <;> omega

/-- Distinct addresses that are there are all counted. -/
theorem removeAll_distinct (addrs : List PeerAddr) : ∀ entries : HashMap PeerAddr Entry,
    addrs.Nodup → (∀ addr ∈ addrs, (entries.lookup addr).isSome) →
      (removeAll entries addrs).2 = addrs.length := by
  induction addrs with
  | nil => exact fun entries distinct stored => rfl
  | cons a addrs ih =>
      intro entries distinct stored
      obtain ⟨fresh, distinct⟩ := List.nodup_cons.mp distinct
      have rest : ∀ addr ∈ addrs, ((entries.erase a).lookup addr).isSome := by
        intro addr member
        have other : addr ≠ a := by
          intro same
          exact fresh (same ▸ member)
        rw [AList.lookup_erase_ne other]
        exact stored addr (List.mem_cons_of_mem a member)
      rw [removeAll_cons, ih _ distinct rest, stored a List.mem_cons_self]
      rfl

/-! ## One eviction -/

variable (book : Book) (now : UInt32)

/-- What one eviction does. -/
structure Evicted (after : Book) (room : Bool) : Prop where
  sub : ∀ addr e, after.entry addr = some e → book.entry addr = some e
  active : after.active = book.active
  capacity : after.capacity = book.capacity
  kept : ∀ addr e, book.entry addr = some e → book.Protected now addr e →
    after.entry addr = some e
  few : book.len ≤ after.len + book.evictionBatch
  room : room = true ↔ after.len < book.len
  -- nothing untried goes while something past its forget rule stays
  order : ∀ addr e, book.entry addr = some e → e.classOf = .unknown → after.entry addr = none →
    ∀ addr' e', book.entry addr' = some e' → e'.origin ≠ .manual →
      book.active.lookup addr' = none → e'.forgettable now = true → after.entry addr' = none
  -- what is left of the batch once the forgotten are gone
  left : book.forgottenCount now ≤ book.evictionBatch

theorem evictBatch_entry (addr : PeerAddr) :
    (book.evictBatch now).1.entry addr =
      if addr ∈ book.forgotten now ∨ addr ∈ ((book.sampled now).items.take
          (book.evictionBatch - book.forgottenCount now)).map Dial.addr then none
      else book.entry addr := by
  have walk : (book.evictBatch now).1.entries =
      (removeAll (removeAll book.entries (book.forgotten now)).1
        (((book.sampled now).items.take
          (book.evictionBatch - book.forgottenCount now)).map Dial.addr)).1 := rfl
  rw [entry, walk, removeAll_lookup, removeAll_lookup, entry]
  grind

theorem forgotten_eq :
    book.forgotten now = ((book.entries.entries.filter (pastForget book.active now)).map
      Sigma.fst).take book.evictionBatch := by
  have room : ([] : List PeerAddr).length < book.evictionBatch :=
    Nat.lt_of_lt_of_le Nat.zero_lt_one (Nat.le_max_right ..)
  exact victims_forgettable book.active now book.evictionBatch _ [] _ _ room

theorem mem_forgotten {addr : PeerAddr} (gone : addr ∈ book.forgotten now) :
    ∃ e, book.entry addr = some e ∧ pastForget book.active now ⟨addr, e⟩ = true := by
  rw [forgotten_eq] at gone
  obtain ⟨⟨addr, e⟩, member, rfl⟩ := List.mem_map.mp (List.mem_of_mem_take gone)
  obtain ⟨stored, past⟩ := List.mem_filter.mp member
  exact ⟨e, HashMap.mem_entries_iff.mp stored, past⟩

theorem mem_sampled {dial : Dial} (gone : dial ∈ (book.sampled now).items) :
    ∃ e, book.entry dial.addr = some e ∧ untried book.active ⟨dial.addr, e⟩ = true := by
  obtain ⟨offered, samples, origin⟩ := victims_unknown book.active now book.evictionBatch
    book.entries.entries [] (Reservoir.new book.evictionBatch) book.rng []
    (Reservoir.new_samples _)
  rcases origin dial (samples.items.subset gone) with none | ⟨⟨addr, e⟩, stored, fresh, same⟩
  · exact absurd none List.not_mem_nil
  · cases same
    exact ⟨e, HashMap.mem_entries_iff.mp stored, fresh⟩

/-- Every forgotten address is counted once. -/
theorem forgottenCount_eq : book.forgottenCount now = (book.forgotten now).length := by
  apply removeAll_distinct
  · rw [forgotten_eq]
    have distinct : ((book.entries.entries.filter (pastForget book.active now)).map
        Sigma.fst).Nodup := book.entries.nodupKeys.sublist List.filter_sublist
    exact distinct.sublist (List.take_sublist ..)
  · intro addr member
    obtain ⟨e, stored, -⟩ := mem_forgotten book now member
    rw [entry] at stored
    rw [stored]
    rfl

theorem forgottenCount_le : book.forgottenCount now ≤ book.evictionBatch := by
  rw [forgottenCount_eq, forgotten_eq]
  exact List.length_take_le ..

/-- Each eviction goes by the forget rule first, spares what it must and tells how it went. -/
theorem evictBatch_spec :
    book.Evicted now (book.evictBatch now).1 (book.evictBatch now).2 := by
  have removal := evictBatch_entry book now
  have left := forgottenCount_le book now
  obtain ⟨size, -⟩ := removeAll_size (book.forgotten now) book.entries
  obtain ⟨size', few⟩ := removeAll_size (((book.sampled now).items.take
    (book.evictionBatch - book.forgottenCount now)).map Dial.addr)
    (removeAll book.entries (book.forgotten now)).1
  rw [List.length_map, List.length_take] at few
  have len : (book.evictBatch now).1.len = HashMap.size (removeAll
    (removeAll book.entries (book.forgotten now)).1 (((book.sampled now).items.take
      (book.evictionBatch - book.forgottenCount now)).map Dial.addr)).1 := rfl
  have told : (book.evictBatch now).2 = decide (0 < (removeAll book.entries
    (book.forgotten now)).2 + (removeAll (removeAll book.entries (book.forgotten now)).1
      (((book.sampled now).items.take
        (book.evictionBatch - book.forgottenCount now)).map Dial.addr)).2) := rfl
  have count : (removeAll book.entries (book.forgotten now)).2 = book.forgottenCount now := rfl
  have whole : book.len = HashMap.size book.entries := rfl
  constructor
  case sub =>
    intro addr e stored
    rw [removal] at stored
    split at stored
    · cases stored
    · exact stored
  case active => rfl
  case capacity => rfl
  case kept =>
    intro addr e stored protected_
    rw [removal, if_neg, stored]
    intro gone
    rcases gone with gone | gone
    · obtain ⟨e', stored', past⟩ := mem_forgotten book now gone
      rw [stored'] at stored
      cases stored
      simp only [pastForget, Bool.and_eq_true, decide_eq_true_eq, Bool.not_eq_true'] at past
      obtain ⟨⟨gossip, idle⟩, past⟩ := past
      rcases protected_ with manual | busy | recent | bad
      · exact gossip manual
      · rw [idle] at busy
        cases busy
      · rw [recent.kept.1] at past
        cases past
      · rw [bad.2] at past
        cases past
    · obtain ⟨dial, member, rfl⟩ := List.mem_map.mp gone
      obtain ⟨e', stored', fresh⟩ := mem_sampled book now (List.mem_of_mem_take member)
      rw [stored'] at stored
      cases stored
      simp only [untried, Bool.and_eq_true, decide_eq_true_eq, Bool.not_eq_true'] at fresh
      obtain ⟨⟨gossip, idle⟩, unknown⟩ := fresh
      rcases protected_ with manual | busy | recent | bad
      · exact gossip manual
      · rw [idle] at busy
        cases busy
      · exact recent.kept.2 unknown
      · rw [unknown] at bad
        cases bad.1
  case few => omega
  case room =>
    rw [told, decide_eq_true_eq]
    omega
  case order =>
    intro addr e stored unknown gone addr' e' stored' gossip idle past
    have displaced : addr ∉ book.forgotten now := by
      intro member
      obtain ⟨e₁, stored₁, past₁⟩ := mem_forgotten book now member
      rw [stored₁] at stored
      cases stored
      simp [pastForget, Entry.forgettable_unknown now unknown] at past₁
    have slots : 0 < book.evictionBatch - book.forgottenCount now := by
      apply Nat.pos_of_ne_zero
      intro no_room
      rw [removal, no_room, List.take_zero, if_neg (by simpa using displaced), stored] at gone
      cases gone
    -- a batch with room left holds every address past its forget rule
    have all : addr' ∈ book.forgotten now := by
      rw [forgottenCount_eq, forgotten_eq, List.length_take] at slots
      rw [forgotten_eq, List.take_of_length_le (by omega)]
      refine List.mem_map.mpr ⟨⟨addr', e'⟩, List.mem_filter.mpr ⟨?_, ?_⟩, rfl⟩
      · exact HashMap.mem_entries_iff.mpr stored'
      · simp [pastForget, gossip, idle, past]
    rw [removal, if_pos (.inl all)]
  case left => exact left

/-! ## Ingest -/

/-- What is protected in a book is still in another, the record of its outcomes unchanged. -/
def Spares (after : Book) : Prop :=
  ∀ addr e, book.entry addr = some e → book.Protected now addr e →
    ∃ e', after.entry addr = some e' ∧ e.SameRecord e' ∧ book.Protected now addr e'

variable {book now}

/-- Refreshing an entry leaves it as protected as it was. -/
theorem refresh_protected {addr : PeerAddr} {e : Entry} (services : UInt64)
    (kept : book.Protected now addr e) :
    e.SameRecord (refresh now services e) ∧
      book.Protected now addr (refresh now services e) := by
  have same : e.SameRecord (refresh now services e) := by
    unfold refresh Entry.SameRecord
    dsimp only
    split <;> rfl
  have announced : (refresh now services e).lastAnnounced = now := by
    unfold refresh
    dsimp only
    split <;> rfl
  refine ⟨same, ?_⟩
  generalize refresh now services e = e' at same announced
  rcases kept with manual | busy | recent | ⟨bad, stays⟩
  · exact .inl (by rw [same]; exact manual)
  · exact .inr (.inl busy)
  · exact .inr (.inr (.inl (by rw [same]; exact recent)))
  · refine .inr (.inr (.inr ⟨same.classOf.trans bad, ?_⟩))
    have origin : e'.origin = e.origin := by rw [same]
    have success : e'.lastSuccess = e.lastSuccess := by rw [same]
    have failures : e'.failures = e.failures := by rw [same]
    have fresh : ¬BAD_ANNOUNCE_GRACE_SECS < saturatingSub now now := by
      rw [saturatingSub, Nat.sub_self]
      decide
    unfold Entry.forgettable shouldForget at *
    rw [origin, success, failures, announced]
    simp only [fresh]
    grind

theorem Spares.of_kept {after : Book} (kept : ∀ addr e, book.entry addr = some e →
    book.Protected now addr e → after.entry addr = some e) : book.Spares now after := by
  intro addr e stored protected_
  exact ⟨e, kept addr e stored protected_, .refl e, protected_⟩

theorem Spares.trans {after last : Book} (first : book.Spares now after)
    (active : after.active = book.active) (second : after.Spares now last) :
    book.Spares now last := by
  intro addr e stored kept
  obtain ⟨e', stored', same, kept'⟩ := first addr e stored kept
  have still : after.Protected now addr e' := by
    unfold Protected at *
    rw [active]
    exact kept'
  obtain ⟨e'', stored'', same', kept''⟩ := second addr e' stored' still
  unfold Protected at kept''
  rw [active] at kept''
  exact ⟨e'', stored'', same.trans same', kept''⟩

/-- A new entry takes the place of no other. -/
theorem Spares.insert {after : Book} {addr : PeerAddr} (absent : book.entry addr = none)
    (kept : ∀ addr e, book.entry addr = some e → book.Protected now addr e →
      after.entry addr = some e) (e : Entry) :
    book.Spares now { after with entries := after.entries.insert addr e } := by
  apply Spares.of_kept
  intro addr' e' stored protected_
  have other : addr' ≠ addr := by
    intro same
    rw [same, absent] at stored
    cases stored
  rw [entry, AList.lookup_insert_ne other]
  exact kept addr' e' stored protected_

theorem Evicted.le {after : Book} {room : Bool} (evicted : book.Evicted now after room) :
    after.len ≤ book.len := by
  have sub : after.entries.entries.Subperm book.entries.entries := by
    apply List.subperm_of_subset after.entries.nodupKeys.nodup
    intro e member
    exact HashMap.mem_entries_iff.mpr (evicted.sub e.1 e.2 (HashMap.mem_entries_iff.mp member))
  exact sub.length_le

variable (book now) [AddrText] (banlist : Banlist)

/-- Taking one address in leaves the book no larger than it was or may be, with everything
    protected still there. -/
theorem ingestOne_spec (g : Gossiped) :
    (ingestOne now banlist book g).1.len ≤ max book.len book.capacity ∧
      (ingestOne now banlist book g).1.capacity = book.capacity ∧
      book.Spares now (ingestOne now banlist book g).1 := by
  have left := Nat.le_max_left book.len book.capacity
  have right := Nat.le_max_right book.len book.capacity
  have asIs (after : Book) (same : after.entries = book.entries) : book.Spares now after := by
    apply Spares.of_kept
    intro addr e stored _
    rw [entry, same]
    exact stored
  unfold ingestOne
  split
  · exact ⟨left, rfl, asIs book rfl⟩
  split
  · have size : HashMap.size (HashMap.modify book.entries g.addr (refresh now g.services)) =
        book.len := List.length_map _
    refine ⟨size.le.trans left, rfl, fun addr e stored kept => ?_⟩
    rw [entry] at stored
    simp only [entry, HashMap.lookup_modify]
    split
    · rw [stored]
      exact ⟨refresh now g.services e, rfl, refresh_protected g.services kept⟩
    · exact ⟨e, stored, .refl e, kept⟩
  rename_i absent
  rw [Option.isSome_iff_ne_none, not_not] at absent
  by_cases full : book.capacity ≤ book.len
  · rw [if_pos full]
    have evicted := evictBatch_spec book now
    generalize book.evictBatch now = made at evicted
    obtain ⟨after, room⟩ := made
    dsimp only at evicted ⊢
    split
    · rename_i roomy
      have smaller := evicted.room.mp roomy
      have grown := HashMap.size_insert_le after.entries g.addr (.new now g.services .gossip)
      refine ⟨?_, evicted.capacity, .insert absent evicted.kept _⟩
      simp only [len] at *
      omega
    · exact ⟨evicted.le.trans left, evicted.capacity, .of_kept evicted.kept⟩
  · rw [if_neg full]
    dsimp only
    have grown := HashMap.size_insert_le book.entries g.addr (.new now g.services .gossip)
    refine ⟨?_, rfl, .insert absent (fun addr e stored _ => stored) _⟩
    simp only [len, reduceIte] at *
    omega

/-- Taking addresses in keeps the book within its capacity, or as it was, and everything
    protected in it; each eviction on the way does what it may and no more. -/
theorem ingest_spec (addrs : List Gossiped) :
    (book.ingest now addrs banlist).1.len ≤ max book.len book.capacity ∧
      book.Spares now (book.ingest now addrs banlist).1 ∧
      ∀ during : Book, during.Evicted now (during.evictBatch now).1 (during.evictBatch now).2 := by
  refine ⟨?_, ?_, fun during => evictBatch_spec during now⟩
  all_goals
    unfold ingest
    generalize (0 : Nat) = added
  · induction addrs generalizing book added with
    | nil => exact Nat.le_max_left ..
    | cons g addrs ih =>
        obtain ⟨size, capacity, -⟩ := ingestOne_spec book now banlist g
        rw [List.foldl_cons]
        have rest := ih (ingestOne now banlist book g).1 (added + (ingestOne now banlist book g).2.toNat)
        rw [capacity] at rest
        have := Nat.le_max_right book.len book.capacity
        exact rest.trans (Nat.max_le.mpr ⟨size, this⟩)
  · induction addrs generalizing book added with
    | nil => exact .of_kept fun addr e stored _ => stored
    | cons g addrs ih =>
        obtain ⟨-, -, spares⟩ := ingestOne_spec book now banlist g
        rw [List.foldl_cons]
        exact spares.trans (ingestOne_active ..) (ih _ _)

end Book

end P2PObserver
