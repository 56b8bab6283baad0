import Mathlib.Data.List.Perm.Subperm
import Mathlib.Data.List.AList
import Mathlib.Data.List.Sort

/-! # Hash maps

Mathlib's association lists with one value type, under the operations a hash map
has beyond them. The order of `entries` is the iteration order; nothing that only
looks keys up depends on it.
-/

/-- A finite map whose entries are listed in iteration order. -/
abbrev HashMap (K V : Type) := AList fun _ : K => V

namespace HashMap

variable {K V : Type} [DecidableEq K]

/-- Number of entries. -/
def size (m : HashMap K V) : Nat := m.entries.length

/-- Keep the entries the predicate accepts. -/
def retain (keep : K → V → Bool) (m : HashMap K V) : HashMap K V :=
  ⟨m.entries.filter fun e => keep e.1 e.2, m.nodupKeys.sublist List.filter_sublist⟩

/-- Change the value of a key in place, if there is one. -/
def modify (m : HashMap K V) (k : K) (change : V → V) : HashMap K V where
  entries := m.entries.map fun e => if e.1 = k then ⟨e.1, change e.2⟩ else e
  nodupKeys := by
    have keys : (m.entries.map fun e => if e.1 = k then ⟨e.1, change e.2⟩ else e).keys =
        m.entries.keys := by
      simp only [List.keys, List.map_map]
      apply List.map_congr_left
      intro e _
      simp only [Function.comp_apply]
      split <;> rfl
    rw [List.NodupKeys, keys]
    exact m.nodupKeys

theorem mem_entries_iff {m : HashMap K V} {k : K} {v : V} :
    (⟨k, v⟩ : Sigma fun _ : K => V) ∈ m.entries ↔ m.lookup k = some v :=
  AList.mem_lookup_iff.symm

theorem mem_iff_lookup {m : HashMap K V} {k : K} : k ∈ m ↔ ∃ v, m.lookup k = some v := by
  rw [← AList.lookup_isSome, Option.isSome_iff_exists]

theorem lookup_retain_iff {keep : K → V → Bool} {m : HashMap K V} {k : K} {v : V} :
    (retain keep m).lookup k = some v ↔ m.lookup k = some v ∧ keep k v = true := by
  rw [← mem_entries_iff, ← mem_entries_iff]
  simp only [retain, List.mem_filter]

theorem lookup_retain (keep : K → V → Bool) (m : HashMap K V) (k : K) :
    (retain keep m).lookup k = (m.lookup k).filter (keep k) := by
  apply Option.ext
  intro v
  rw [lookup_retain_iff, Option.filter_eq_some_iff]

theorem lookup_insert_iff {m : HashMap K V} {k k' : K} {v v' : V} :
    (m.insert k v).lookup k' = some v' ↔
      k' = k ∧ v' = v ∨ k' ≠ k ∧ m.lookup k' = some v' := by
  by_cases same : k' = k
  · subst same
    simp [AList.lookup_insert, eq_comm]
  · simp [AList.lookup_insert_ne same, same]

theorem lookup_erase_iff {m : HashMap K V} {k k' : K} {v : V} :
    (m.erase k).lookup k' = some v ↔ k' ≠ k ∧ m.lookup k' = some v := by
  by_cases same : k' = k
  · subst same
    simp [AList.lookup_erase]
  · simp [AList.lookup_erase_ne same, same]

theorem lookup_foldl_erase {keys : List K} {m : HashMap K V} {k : K} {v : V} :
    (keys.foldl (fun m key => m.erase key) m).lookup k = some v ↔
      k ∉ keys ∧ m.lookup k = some v := by
  induction keys generalizing m with
  | nil => simp
  | cons key rest ih =>
      rw [List.foldl_cons, ih, lookup_erase_iff, List.mem_cons]
      tauto

/-- Writing a key makes erasing it first needless. -/
theorem insert_erase (m : HashMap K V) (k : K) (v : V) : (m.erase k).insert k v = m.insert k v := by
  apply AList.ext
  have gone : k ∉ (m.erase k).entries.keys := List.notMem_keys_kerase k m.nodupKeys
  rw [AList.entries_insert, AList.entries_insert, List.kerase_of_notMem_keys gone]
  rfl

theorem lookup_modify {m : HashMap K V} {k k' : K} {change : V → V} :
    (modify m k change).lookup k' =
      if k' = k then (m.lookup k').map change else m.lookup k' := by
  apply Option.ext
  intro v
  rw [← mem_entries_iff]
  simp only [modify, List.mem_map]
  constructor
  · intro stored
    obtain ⟨⟨k₀, v₀⟩, member, eq⟩ := stored
    have found := mem_entries_iff.mp member
    by_cases same : k₀ = k
    · rw [if_pos same] at eq
      cases eq
      rw [if_pos same, found, Option.map_some]
    · rw [if_neg same] at eq
      cases eq
      rw [if_neg same, found]
  · intro found
    by_cases same : k' = k
    · rw [if_pos same] at found
      obtain ⟨v₀, found', rfl⟩ := Option.map_eq_some_iff.mp found
      exact ⟨⟨k', v₀⟩, mem_entries_iff.mpr found', if_pos same⟩
    · rw [if_neg same] at found
      exact ⟨⟨k', v⟩, mem_entries_iff.mpr found, if_neg same⟩

/-- `collect`: of the entries for one key the last is kept. -/
def collect (pairs : List (K × V)) : HashMap K V :=
  pairs.foldr (fun e m => if e.1 ∈ m then m else m.insert e.1 e.2) ∅

example : (collect [(1, 'a'), (2, 'b'), (1, 'c')]).lookup 1 = some 'c' := by decide

/-- Collecting the entries of a map gives the map. -/
theorem collect_entries (m : HashMap K V) : collect (m.entries.map fun e => (e.1, e.2)) = m := by
  obtain ⟨entries, nodup⟩ := m
  apply AList.ext
  induction entries with
  | nil => rfl
  | cons e rest ih =>
      have collected := ih (List.nodupKeys_of_nodupKeys_cons nodup)
      have new : e.1 ∉ collect (rest.map fun e => (e.1, e.2)) := by
        rw [AList.mem_keys, AList.keys, collected]
        exact List.notMem_keys_of_nodupKeys_cons nodup
      rw [List.map_cons, collect, List.foldr_cons]
      exact (congrArg AList.entries (if_neg new)).trans
        ((AList.entries_insert_of_notMem new).trans (congrArg _ collected))

theorem eq_empty {m : HashMap K V} (vacant : ∀ k, m.lookup k = none) : m = ∅ := by
  apply AList.ext
  cases entries : m.entries with
  | nil => rfl
  | cons e rest =>
      have found : m.lookup e.1 = some e.2 := mem_entries_iff.mp (entries ▸ List.mem_cons_self)
      rw [vacant] at found
      cases found

/-- A part of a map that is no smaller is the whole map. -/
theorem lookup_of_size_le {m part : HashMap K V}
    (sub : ∀ k v, part.lookup k = some v → m.lookup k = some v) (le : size m ≤ size part)
    {k : K} {v : V} (found : m.lookup k = some v) : part.lookup k = some v := by
  have inside : part.entries ⊆ m.entries := by
    intro e member
    exact mem_entries_iff.mpr (sub e.1 e.2 (mem_entries_iff.mp member))
  have perm : part.entries.Perm m.entries :=
    (List.subperm_of_subset part.nodupKeys.nodup inside).perm_of_length_le le
  exact mem_entries_iff.mp (perm.mem_iff.mpr (mem_entries_iff.mpr found))

/-- Writing a key adds at most one entry, and none when the key is there already. -/
theorem size_insert_le (m : HashMap K V) (k : K) (v : V) : size (m.insert k v) ≤ size m + 1 := by
  rw [size, AList.entries_insert, List.length_cons]
  have fewer : (m.entries.kerase k).length ≤ m.entries.length :=
    (List.kerase_sublist k m.entries).length_le
  exact Nat.succ_le_succ fewer

theorem size_insert_of_mem {m : HashMap K V} {k : K} (member : k ∈ m) (v : V) :
    size (m.insert k v) = size m := by
  obtain ⟨b, before, after, -, all, rest⟩ := List.exists_of_kerase (AList.mem_keys.mpr member)
  rw [size, size, AList.entries_insert, rest, all]
  simp only [List.length_cons, List.length_append]
  omega

/-- Erasing a key removes one entry if the key is there, none otherwise. -/
theorem size_erase (m : HashMap K V) (k : K) :
    size (m.erase k) + (m.lookup k).isSome.toNat = size m := by
  have erased : size (m.erase k) = (m.entries.kerase k).length := rfl
  by_cases member : k ∈ m
  · obtain ⟨b, before, after, -, all, rest⟩ := List.exists_of_kerase (AList.mem_keys.mpr member)
    rw [AList.lookup_isSome.mpr member, erased, rest, size, all]
    simp only [List.length_append, List.length_cons, Bool.toNat_true]
    omega
  · rw [AList.lookup_eq_none.mpr member, erased, List.kerase_of_notMem_keys member]
    rfl

/-- Two maps with the same lookups hold the same entries, in some order. -/
theorem entries_perm {m m' : HashMap K V} (same : ∀ k, m.lookup k = m'.lookup k) :
    m.entries.Perm m'.entries := by
  apply List.lookup_ext m.nodupKeys m'.nodupKeys
  intro k v
  have eq : m.entries.dlookup k = m'.entries.dlookup k := same k
  rw [eq]

/-! ## Entries in the order of a key -/

section Sorted

variable {O : Type} [LinearOrder O] (order : (Sigma fun _ : K => V) → O)

/-- The entries, sorted by what `order` makes of each. -/
def sortedBy (m : HashMap K V) : List (Sigma fun _ : K => V) :=
  m.entries.insertionSort fun e f => order e ≤ order f

theorem mem_sortedBy {order : (Sigma fun _ : K => V) → O} {m : HashMap K V} {k : K} {v : V} :
    (⟨k, v⟩ : Sigma fun _ : K => V) ∈ sortedBy order m ↔ m.lookup k = some v := by
  rw [sortedBy, (List.perm_insertionSort _ _).mem_iff, mem_entries_iff]

omit [DecidableEq K] in
theorem sortedBy_pairwise (m : HashMap K V) :
    (sortedBy order m).Pairwise fun e f => order e ≤ order f := by
  have total : Std.Total fun e f : Sigma fun _ : K => V => order e ≤ order f :=
    ⟨fun e f => le_total (order e) (order f)⟩
  have trans : IsTrans (Sigma fun _ : K => V) fun e f => order e ≤ order f :=
    ⟨fun _ _ _ le le' => le.trans le'⟩
  exact List.pairwise_insertionSort _ _

/-- Maps with the same lookups list the same entries in the order of a key that tells
    entries apart, whatever their iteration orders. -/
theorem sortedBy_congr {order : (Sigma fun _ : K => V) → O} {m m' : HashMap K V}
    (same : ∀ k, m.lookup k = m'.lookup k)
    (apart : ∀ e f, order e = order f → e.1 = f.1) : sortedBy order m = sortedBy order m' := by
  have perm : (sortedBy order m).Perm (sortedBy order m') :=
    (List.perm_insertionSort _ _).trans
      ((entries_perm same).trans (List.perm_insertionSort _ _).symm)
  refine perm.eq_of_pairwise ?_ (sortedBy_pairwise order m) (sortedBy_pairwise order m')
  rintro ⟨k, v⟩ ⟨k', v'⟩ inside inside' le le'
  obtain rfl : k = k' := apart _ _ (le_antisymm le le')
  rw [mem_sortedBy] at inside inside'
  rw [same, inside'] at inside
  rw [Option.some.inj inside]

end Sorted

/-! ## Entries in the order of their keys -/

section Keys

variable {O V : Type} [LinearOrder O] {m : HashMap O V} {k : O} {v : V}

/-- The entries in the order of their keys, as an ordered map lists them. -/
def inOrder (m : HashMap O V) : List (Sigma fun _ : O => V) := sortedBy Sigma.fst m

theorem mem_inOrder {e : Sigma fun _ : O => V} : e ∈ inOrder m ↔ m.lookup e.1 = some e.2 :=
  mem_sortedBy

theorem length_inOrder (m : HashMap O V) : (inOrder m).length = size m :=
  List.length_insertionSort ..

/-- Only one list of the entries has the keys rising. -/
theorem inOrder_eq {entries : List (Sigma fun _ : O => V)}
    (rising : entries.Pairwise fun e f => e.1 < f.1)
    (same : ∀ e, e ∈ entries ↔ m.lookup e.1 = some e.2) : inOrder m = entries := by
  have distinct : entries.Nodup := rising.imp fun lt eq => absurd (congrArg Sigma.fst eq) lt.ne
  have distinct' : (inOrder m).Nodup :=
    (List.perm_insertionSort _ _).nodup_iff.mpr m.nodupKeys.nodup
  have perm : (inOrder m).Perm entries :=
    (List.perm_ext_iff_of_nodup distinct' distinct).mpr fun e => mem_inOrder.trans (same e).symm
  have below : entries.Pairwise fun e f => e.1 ≤ f.1 := rising.imp le_of_lt
  refine perm.eq_of_pairwise ?_ (sortedBy_pairwise Sigma.fst m) below
  intro ⟨key, value⟩ ⟨key', value'⟩ inside inside' le le'
  obtain rfl : key = key' := le_antisymm le le'
  have found : m.lookup key = some value := mem_inOrder.mp inside
  have found' : m.lookup key = some value' := (same _).mp inside'
  rw [Option.some.inj (found.symm.trans found')]

theorem inOrder_pairwise (m : HashMap O V) : (inOrder m).Pairwise fun e f => e.1 < f.1 := by
  have keys : ((inOrder m).map Sigma.fst).Nodup :=
    ((List.perm_insertionSort _ _).map Sigma.fst).nodup_iff.mpr m.nodupKeys
  have apart := List.pairwise_map.mp keys
  exact ((sortedBy_pairwise Sigma.fst m).and apart).imp fun both => lt_of_le_of_ne both.1 both.2

/-- A key above all others goes to the end. -/
theorem inOrder_insert (above : ∀ k' v', m.lookup k' = some v' → k' < k) :
    inOrder (m.insert k v) = inOrder m ++ [⟨k, v⟩] := by
  apply inOrder_eq
  · rw [List.pairwise_append]
    refine ⟨inOrder_pairwise m, List.pairwise_singleton .., fun e inside f last => ?_⟩
    rw [List.mem_singleton] at last
    subst last
    exact above e.1 e.2 (mem_inOrder.mp inside)
  · intro ⟨key, value⟩
    rw [List.mem_append, mem_inOrder, lookup_insert_iff, List.mem_singleton]
    constructor
    · intro either
      cases either with
      | inl old => exact .inr ⟨(above _ _ old).ne, old⟩
      | inr new =>
          cases new
          exact .inl ⟨rfl, rfl⟩
    · intro either
      cases either with
      | inl new =>
          obtain ⟨rfl, rfl⟩ := new
          exact .inr rfl
      | inr old => exact .inl old.2

theorem inOrder_erase {before after : List (Sigma fun _ : O => V)}
    (split : inOrder m = before ++ ⟨k, v⟩ :: after) : inOrder (m.erase k) = before ++ after := by
  have rising := split ▸ inOrder_pairwise m
  rw [List.pairwise_append, List.pairwise_cons] at rising
  apply inOrder_eq
  · rw [List.pairwise_append]
    exact ⟨rising.1, rising.2.1.2, fun e early f late =>
      rising.2.2 e early f (List.mem_cons_of_mem _ late)⟩
  · intro e
    rw [lookup_erase_iff, ← mem_inOrder, split, List.mem_append, List.mem_append, List.mem_cons]
    constructor
    · intro either
      cases either with
      | inl early => exact ⟨(rising.2.2 e early _ List.mem_cons_self).ne, .inl early⟩
      | inr late => exact ⟨(rising.2.1.1 e late).ne', .inr (.inr late)⟩
    · intro ⟨other, either⟩
      rcases either with early | here | late
      · exact .inl early
      · exact absurd (congrArg Sigma.fst here) other
      · exact .inr late

/-- The first of them has the least key. -/
theorem min_keys_of_inOrder {m : HashMap Nat V} {k : Nat} {rest : List (Sigma fun _ : Nat => V)}
    (first : inOrder m = ⟨k, v⟩ :: rest) : m.keys.min? = some k := by
  have rising := first ▸ inOrder_pairwise m
  have perm : ((inOrder m).map Sigma.fst).Perm m.keys := (List.perm_insertionSort _ _).map _
  rw [List.min?_eq_some_iff]
  constructor
  · exact perm.mem_iff.mp (by simp [first])
  · intro other member
    rw [← perm.mem_iff, first, List.map_cons, List.mem_cons] at member
    cases member with
    | inl here => exact here.ge
    | inr later =>
        obtain ⟨e, inside, rfl⟩ := List.mem_map.mp later
        exact (List.rel_of_pairwise_cons rising inside).le

end Keys

end HashMap
