import P2PObserver.HeaderTree.Verdicts
import P2PObserver.Protocol.Locators

/-! # What a reply teaches

A reply to a locator is a run of linked headers on top of a block the asking tree has. It has
something new in it exactly if inserting it accepts a header or shows the peer to be on another
chain, and an empty one means that the asking tree has the peer's tip.
-/

namespace P2PObserver

variable {H : Type} [LinearOrder H] {net : Network H}

/-- Headers that each build on the one before. -/
def Linked (net : Network H) (headers : List (Header H)) : Prop :=
  headers.IsChain fun header next => next.prevBlockhash = net.blockHash header

namespace HeaderTree

/-- Whether a reply is empty or has a header that the tree lacks. -/
def Teaches (net : Network H) (t : HeaderTree H) (headers : List (Header H)) : Prop :=
  headers = [] ∨ ∃ header ∈ headers, net.blockHash header ∉ t.headers

instance (net : Network H) (t : HeaderTree H) (headers : List (Header H)) :
    Decidable (t.Teaches net headers) := inferInstanceAs (Decidable (_ ∨ _))

/-- Whether an insertion accepted a header or showed the peer to be on another chain. -/
def Advances (result : Nat × Option HeaderError) : Prop :=
  0 < result.1 ∨ ∃ reason, result.2 = some reason ∧ reason.isOtherChain = true

theorem insertEach_of_known {t : HeaderTree H} {headers : List (Header H)}
    (known : ∀ header ∈ headers, net.blockHash header ∈ t.headers) :
    t.insertEach net headers = (t, 0, none) := by
  induction headers with
  | nil => rfl
  | cons header rest ih =>
      obtain ⟨held, known⟩ := List.forall_mem_cons.mp known
      have same : t.insertInner net header = (t, .ok false) := if_pos held
      simp only [insertEach, same, ih known]

/-- Headers the tree has change nothing. -/
theorem insertBatch_of_known {t : HeaderTree H} {headers : List (Header H)}
    (known : ∀ header ∈ headers, net.blockHash header ∈ t.headers) :
    t.insertBatch net headers = (t, 0, none) := by
  simp only [insertBatch, insertEach_of_known known, if_true]

end HeaderTree

/-- Linked headers with a new one, on top of a block the tree has. -/
theorem Represents.insertEach_advances {t : HeaderTree H} {held : Set (List (Header H))}
    (R : Represents net t held) {headers : List (Header H)} (linked : Linked net headers)
    (bottom : ∀ header ∈ headers.head?, header.prevBlockhash ∈ t.headers)
    (new : ∃ header ∈ headers, net.blockHash header ∉ t.headers) :
    HeaderTree.Advances (t.insertEach net headers).2 := by
  induction headers with
  | nil =>
      obtain ⟨_, listed, -⟩ := new
      cases listed
  | cons header rest ih =>
      have parent := bottom header rfl
      have outcome := R.insertInner_outcome header
      unfold HeaderTree.insertEach
      generalize t.insertInner net header = inserted at outcome ⊢
      obtain ⟨t', result⟩ := inserted
      dsimp only at outcome ⊢
      cases outcome with
      | known held =>
          -- The tree is as it was, and the next header builds on this one.
          apply ih (List.isChain_of_isChain_cons linked)
          · intro next first
            cases rest with
            | nil => cases first
            | cons second rest =>
                cases first
                rw [(List.isChain_cons_cons.mp linked).1]
                exact R.toMapOf.mem_iff.mpr ⟨header, _, held, rfl⟩
          · obtain ⟨other, listed, lacking⟩ := new
            refine ⟨other, (List.mem_cons.mp listed).resolve_left ?_, lacking⟩
            intro same
            exact lacking (same ▸ R.toMapOf.mem_iff.mpr ⟨header, _, held, rfl⟩)
      | unplaced _ orphan =>
          obtain ⟨p, below, member, key⟩ := R.toMapOf.mem_iff.mp parent
          exact absurd key (orphan p below member)
      | refused _ _ _ said =>
          exact .inr ⟨_, rfl, Network.verdict_isOtherChain said⟩
      | accepted => exact .inl (Nat.succ_pos _)

theorem Represents.insertBatch_advances {t : HeaderTree H} {held : Set (List (Header H))}
    (R : Represents net t held) {headers : List (Header H)} (linked : Linked net headers)
    (bottom : ∀ header ∈ headers.head?, header.prevBlockhash ∈ t.headers)
    (filled : headers ≠ []) :
    HeaderTree.Advances (t.insertBatch net headers).2 ↔ t.Teaches net headers := by
  constructor
  · intro advances
    by_contra nothing
    have known : ∀ header ∈ headers, net.blockHash header ∈ t.headers := by
      intro header listed
      by_contra lacking
      exact nothing (.inr ⟨header, listed, lacking⟩)
    rw [HeaderTree.insertBatch_of_known known] at advances
    rcases advances with accepted | ⟨_, never, _⟩
    · exact absurd accepted (Nat.lt_irrefl 0)
    · cases never
  · intro teaches
    exact R.insertEach_advances linked bottom (teaches.resolve_left filled)

namespace Invariant

variable {a b : HeaderTree H}

theorem mem_headers_of_mem_bestChain (I : Invariant net a) {hash : H} (on : hash ∈ a.bestChain) :
    hash ∈ a.headers := by
  obtain ⟨height, here⟩ := List.mem_iff_getElem?.mp on
  obtain ⟨entry, found, -⟩ := I.chain_entry here
  exact HashMap.mem_iff_lookup.mpr ⟨entry, found⟩

/-- The headers of a reply are linked. -/
theorem reply_linked (B : Invariant net b) (locator : List H) :
    Linked net (b.getHeadersFromLocator net locator net.zeroHash) := by
  obtain ⟨start, -, -, eq⟩ := B.answerExact locator net.zeroHash
  rw [if_pos rfl] at eq
  generalize b.getHeadersFromLocator net locator net.zeroHash = headers at eq ⊢
  have here (i : Nat) {header : Header H} (at_i : headers[i]? = some header) :
      b.bestChain[start + i]? = some (net.blockHash header) := by
    have mapped := congrArg (·[i]?) eq
    simp only [List.getElem?_map, at_i, Option.map_some] at mapped
    rw [List.getElem?_take] at mapped
    split at mapped
    · rw [List.getElem?_drop] at mapped
      exact mapped.symm
    · cases mapped
  apply List.isChain_iff_getElem.mpr
  intro i inside
  have low := here i (List.getElem?_eq_getElem (Nat.lt_of_succ_lt inside))
  have high := here (i + 1) (List.getElem?_eq_getElem inside)
  obtain ⟨entry, found, link⟩ := B.chain_link _ _ _ low high
  rw [← net.blockHash_injective (B.keyed _ entry found), link]

/-- An empty reply comes from a tree whose tip the asking tree has. -/
theorem tip_mem_of_empty_reply (A : Invariant net a) (B : Invariant net b)
    (empty : b.getHeadersFromLocator net a.buildLocator net.zeroHash = []) :
    b.tip ∈ a.headers := by
  obtain ⟨start, starts, within, eq⟩ := B.answerExact a.buildLocator net.zeroHash
  obtain ⟨hash, height, own, here, rfl⟩ := A.starts_on B starts
  rw [if_pos rfl, empty, List.map_nil] at eq
  have ends : b.bestChain.length ≤ height + 1 := by
    by_contra more
    have nonempty : (b.bestChain.drop (height + 1)).take MAX_HEADERS_RESULTS ≠ [] := by
      simp only [ne_eq, List.take_eq_nil_iff, List.drop_eq_nil_iff]
      rintro (never | short)
      · cases never
      · exact more short
    exact nonempty eq.symm
  have last := B.chain_last
  rw [List.getLast?_eq_getElem?, show b.bestChain.length - 1 = height by omega, here] at last
  rw [← Option.some.inj last]
  exact A.mem_headers_of_mem_bestChain own

/-- A reply builds on the asking tree. -/
theorem reply_bottom (A : Invariant net a) (B : Invariant net b) :
    ∀ header ∈ (b.getHeadersFromLocator net a.buildLocator net.zeroHash).head?,
      header.prevBlockhash ∈ a.headers := by
  intro header first
  obtain ⟨rest, answer⟩ := List.head?_eq_some_iff.mp first
  exact A.mem_headers_of_mem_bestChain (A.answer_links B answer)

end Invariant

end P2PObserver
