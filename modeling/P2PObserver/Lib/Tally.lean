import Mathlib.Algebra.Ring.Nat
import Mathlib.Data.List.Perm.Basic
import Mathlib.Logic.Function.Basic
import P2PObserver.Lib.HashMap
import Std.Data.ExtTreeMap

/-! # Tallies

Values kept under keys and changed in place, one update after another. Where the updates of one
key commute, nothing shows the order they came in.
-/

/-- Steps that commute one by one commute list by list. -/
theorem foldl_comm {S E : Type} {step : S → E → S}
    (swap : ∀ s e e', step (step s e) e' = step (step s e') e) (es es' : List E) (s : S) :
    es'.foldl step (es.foldl step s) = es.foldl step (es'.foldl step s) := by
  have swaps : RightCommutative step := ⟨swap⟩
  rw [← List.foldl_append, ← List.foldl_append]
  exact List.perm_append_comm.foldl_eq s

/-- A reading of the state that the steps carry along, and carry along in any order. -/
theorem foldl_perm {S E C : Type} {step : S → E → S} (read : S → C) (next : C → E → C)
    (carries : ∀ s e, read (step s e) = next (read s) e)
    (swap : ∀ c e e', next (next c e) e' = next (next c e') e) {es es' : List E}
    (perm : es.Perm es') (s : S) : read (es.foldl step s) = read (es'.foldl step s) := by
  have swaps : RightCommutative next := ⟨swap⟩
  have along (es : List E) : read (es.foldl step s) = es.foldl next (read s) :=
    (List.foldl_hom read fun s e => (carries s e).symm).symm
  rw [along, along, perm.foldl_eq]

/-- A count to which each step adds what its event carries. -/
theorem foldl_adds {S E : Type} {step : S → E → S} (count : S → Nat) (adds : E → Nat)
    (carries : ∀ s e, count (step s e) = count s + adds e) (es : List E) (s : S) :
    count (es.foldl step s) = count s + (es.map adds).sum := by
  induction es generalizing s with
  | nil => rfl
  | cons e es ih => rw [List.foldl_cons, ih, carries, List.map_cons, List.sum_cons, Nat.add_assoc]

/-- Change what a key holds, from the default where it holds nothing yet. -/
def bump {K V : Type} [DecidableEq K] [Inhabited V] (held : K → Option V) (k : K)
    (change : V → V) : K → Option V :=
  Function.update held k (some (change ((held k).getD default)))

theorem bump_comm {K V : Type} [DecidableEq K] [Inhabited V] {change change' : V → V}
    (swap : ∀ v, change (change' v) = change' (change v)) (held : K → Option V) (k k' : K) :
    bump (bump held k change) k' change' = bump (bump held k' change') k change := by
  by_cases same : k = k'
  · subst same
    simp only [bump, Function.update_self, Function.update_idem, Option.getD_some, swap]
  · have other : k' ≠ k := Ne.symm same
    simp only [bump, Function.update_of_ne other, Function.update_of_ne same]
    exact Function.update_comm same ..

/-- At most one update, of the key it names. -/
def bumpAny {K V : Type} [DecidableEq K] [Inhabited V] (held : K → Option V) :
    Option (K × (V → V)) → K → Option V
  | none => held
  | some (k, change) => bump held k change

theorem bumpAny_comm {K V : Type} [DecidableEq K] [Inhabited V]
    {update update' : Option (K × (V → V))}
    (swap : ∀ u ∈ update, ∀ u' ∈ update', ∀ v, u.2 (u'.2 v) = u'.2 (u.2 v))
    (held : K → Option V) :
    bumpAny (bumpAny held update) update' = bumpAny (bumpAny held update') update := by
  cases update with
  | none => rfl
  | some u =>
      cases update' with
      | none => rfl
      | some u' => exact bump_comm (swap u rfl u' rfl) held u.1 u'.1

namespace HashMap

variable {K V : Type} [DecidableEq K]

/-- What each key holds, which says nothing of the iteration order. -/
def held (m : HashMap K V) : K → Option V := fun k => m.lookup k

/-- Change the value of a key, which is put there with the default first when it is new. -/
def entry [Inhabited V] (m : HashMap K V) (k : K) (change : V → V) : HashMap K V :=
  m.insert k (change ((m.lookup k).getD default))

theorem held_entry [Inhabited V] (m : HashMap K V) (k : K) (change : V → V) :
    held (entry m k change) = bump (held m) k change := by
  funext k'
  by_cases same : k' = k
  · subst same
    rw [held, entry, AList.lookup_insert, bump, Function.update_self, held]
  · rw [held, entry, AList.lookup_insert_ne same, bump, Function.update_of_ne same, held]

/-- At most one update, of the key it names. -/
def entryAny [Inhabited V] (m : HashMap K V) : Option (K × (V → V)) → HashMap K V
  | none => m
  | some (k, change) => entry m k change

theorem held_entryAny [Inhabited V] (m : HashMap K V) (update : Option (K × (V → V))) :
    held (entryAny m update) = bumpAny (held m) update := by
  cases update with
  | none => rfl
  | some u => exact held_entry m u.1 u.2

/-- The values, in iteration order. -/
def values (m : HashMap K V) : List V := m.entries.map Sigma.snd

variable {m m' : HashMap K V}

theorem perm_of_held (same : held m = held m') : m.entries.Perm m'.entries :=
  entries_perm (congrFun same)

theorem values_perm (same : held m = held m') : (values m).Perm (values m') :=
  (perm_of_held same).map _

theorem size_congr (same : held m = held m') : size m = size m' :=
  (perm_of_held same).length_eq

theorem held_retain (keep : K → V → Bool) (same : held m = held m') :
    held (retain keep m) = held (retain keep m') := by
  funext k
  have found : m.lookup k = m'.lookup k := congrFun same k
  rw [held, held, lookup_retain, lookup_retain, found]

end HashMap

/-! ## Ordered maps -/

/-- A finite map that lists its entries in the order of the keys. -/
abbrev BTreeMap (K V : Type) [Ord K] := Std.ExtTreeMap K V compare

namespace BTreeMap

variable {K V : Type} [Ord K] [Std.TransOrd K] [Std.LawfulEqOrd K]

/-- Change the value of a key, which is put there with the default first when it is new. -/
def entry [Inhabited V] (m : BTreeMap K V) (k : K) (change : V → V) : BTreeMap K V :=
  m.alter k fun held => some (change (held.getD default))

theorem entry_comm [Inhabited V] {change change' : V → V}
    (swap : ∀ v, change (change' v) = change' (change v)) (m : BTreeMap K V) (k k' : K) :
    entry (entry m k change) k' change' = entry (entry m k' change') k change := by
  apply Std.ExtTreeMap.ext_getElem?
  intro key
  simp only [entry, Std.ExtTreeMap.getElem?_alter, Std.LawfulEqOrd.compare_eq_iff_eq]
  grind

/-- One more under each key listed. -/
def countAll (m : BTreeMap K Nat) (keys : List K) : BTreeMap K Nat :=
  keys.foldl (fun m k => entry m k (· + 1)) m

theorem countAll_comm (m : BTreeMap K Nat) (keys keys' : List K) :
    countAll (countAll m keys) keys' = countAll (countAll m keys') keys :=
  foldl_comm (fun m => entry_comm (fun _ => rfl) m) keys keys' m

theorem getD_countAll [BEq K] [LawfulBEq K] (m : BTreeMap K Nat) (keys : List K) (k : K) :
    ((countAll m keys)[k]?).getD 0 = (m[k]?).getD 0 + keys.count k := by
  induction keys generalizing m with
  | nil => rfl
  | cons key keys ih =>
      have once : ((entry m key (· + 1))[k]?).getD 0 =
          (m[k]?).getD 0 + if key == k then 1 else 0 := by
        simp only [entry, Std.ExtTreeMap.getElem?_alter, Std.LawfulEqOrd.compare_eq_iff_eq]
        by_cases same : key = k
        · simp [same]
        · simp [same]
      rw [countAll, List.foldl_cons, ← countAll, ih, once, List.count_cons]
      omega

end BTreeMap
