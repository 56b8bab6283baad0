import Mathlib.Computability.Language
import P2PObserver.Lib.Program

/-! # What a program says

Some exchanges of a program are lines of a script. Whatever the answers, the script of a run is
a word of a language, or the beginning of one where the run is stopped or fails.
-/

namespace Program

variable {Q : Type} {A : Q → Type} {E R R' M : Type}

/-- The beginnings of the words of a language. -/
def beginnings (L : Language M) : Language M := {w | ∃ more, w ++ more ∈ L}

theorem mem_beginnings {L : Language M} {w : List M} :
    w ∈ beginnings L ↔ ∃ more, w ++ more ∈ L := Iff.rfl

theorem mem_beginnings_of_mem {L : Language M} {w : List M} (member : w ∈ L) : w ∈ beginnings L :=
  ⟨[], by rwa [List.append_nil]⟩

theorem beginnings_mono {L L' : Language M} (le : ∀ w ∈ L, w ∈ L') :
    ∀ w ∈ beginnings L, w ∈ beginnings L' := by
  intro w begun
  obtain ⟨more, member⟩ := begun
  exact ⟨more, le _ member⟩

theorem nil_mem_beginnings {L : Language M} : [] ∈ beginnings L ↔ ∃ w, w ∈ L := Iff.rfl

/-- The lines among the exchanges. -/
def script (line : Exchange Q A → Option M) (trace : List (Exchange Q A)) : List M :=
  trace.filterMap line

/-- A run of two programs in sequence is one of the first that does not finish, or has one of the
    second behind it. -/
theorem Runs.of_bind {p : Program Q A E R} {f : R → Program Q A E R'}
    {trace : List (Exchange Q A)} {end_ : Option (Except E R')}
    (runs : Runs (p.bind f) trace end_) :
    (∃ end', Runs p trace end' ∧ ∀ r, end_ ≠ some (.ok r)) ∨
      ∃ before rest r, trace = before ++ rest ∧ Runs p before (some (.ok r)) ∧
        Runs (f r) rest end_ := by
  induction p generalizing trace with
  | done r => exact .inr ⟨[], trace, r, rfl, .done r, runs⟩
  | fail e =>
      left
      cases runs with
      | stopped => exact ⟨none, .stopped _, by simp⟩
      | fail => exact ⟨_, .fail e, by simp⟩
  | running =>
      cases runs with
      | stopped => exact .inl ⟨none, .stopped _, by simp⟩
  | ask q next ih =>
      cases runs with
      | stopped => exact .inl ⟨none, .stopped _, by simp⟩
      | ask runs =>
          rcases ih _ runs with ⟨end', first, unfinished⟩ | ⟨before, rest, r, rfl, first, second⟩
          · exact .inl ⟨end', .ask first, unfinished⟩
          · exact .inr ⟨_ :: before, rest, r, rfl, .ask first, second⟩

/-- What a program says, and what it finishes with. -/
structure Says (line : Exchange Q A → Option M) (p : Program Q A E R) (L : Language M)
    (post : R → Prop) : Prop where
  begun : ∀ trace end_, Runs p trace end_ → script line trace ∈ beginnings L
  finished : ∀ trace r, Runs p trace (some (.ok r)) → script line trace ∈ L ∧ post r

namespace Says

variable {line : Exchange Q A → Option M} {p : Program Q A E R} {L L' : Language M}
  {post post' : R → Prop}

/-- There is something to say. -/
theorem nonempty (tells : Says line p L post) : ∃ w, w ∈ L :=
  nil_mem_beginnings.mp (tells.begun [] none (.stopped p))

theorem mono (tells : Says line p L post) (le : ∀ w ∈ L, w ∈ L')
    (weaker : ∀ r, post r → post' r) : Says line p L' post' where
  begun trace end_ runs := beginnings_mono le _ (tells.begun trace end_ runs)
  finished trace r runs :=
    ⟨le _ (tells.finished trace r runs).1, weaker r (tells.finished trace r runs).2⟩

theorem done {r : R} (silent : [] ∈ L) (holds : post r) :
    Says (E := E) line (.done r) L post := by
  constructor
  · intro trace end_ runs
    cases runs <;> exact mem_beginnings_of_mem silent
  · intro trace r' runs
    cases runs
    exact ⟨silent, holds⟩

theorem fail {e : E} (word : ∃ w, w ∈ L) : Says line (.fail e) L post := by
  constructor
  · intro trace end_ runs
    cases runs <;> exact nil_mem_beginnings.mpr word
  · intro trace r runs
    cases runs

theorem running (word : ∃ w, w ∈ L) : Says (E := E) line .running L post := by
  constructor
  · intro trace end_ runs
    cases runs
    exact nil_mem_beginnings.mpr word
  · intro trace r runs
    cases runs

/-- The rule for a question: what is said behind an answer may depend on it. -/
theorem question {q : Q} {f : A q → Program Q A E R} [Nonempty (A q)]
    (rest : ∀ a, ∃ K, Says line (f a) K post ∧ ∀ w ∈ K, (line ⟨q, a⟩).toList ++ w ∈ L) :
    Says line ((Program.question q).bind f) L post := by
  have lines (a : A q) (trace : List (Exchange Q A)) :
      script line (⟨q, a⟩ :: trace) = (line ⟨q, a⟩).toList ++ script line trace := by
    unfold script
    rw [List.filterMap_cons]
    cases line ⟨q, a⟩ <;> rfl
  constructor
  · intro trace end_ runs
    cases runs with
    | stopped =>
        obtain ⟨a⟩ : Nonempty (A q) := inferInstance
        obtain ⟨K, tells, within⟩ := rest a
        obtain ⟨w, word⟩ := tells.nonempty
        exact nil_mem_beginnings.mpr ⟨_, within w word⟩
    | @ask _ _ a trace _ runs =>
        obtain ⟨K, tells, within⟩ := rest a
        obtain ⟨more, word⟩ := tells.begun _ _ runs
        rw [lines, mem_beginnings]
        refine ⟨more, ?_⟩
        rw [List.append_assoc]
        exact within _ word
  · intro trace r runs
    cases runs with
    | @ask _ _ a trace _ runs =>
        obtain ⟨K, tells, within⟩ := rest a
        obtain ⟨word, holds⟩ := tells.finished _ r runs
        rw [lines]
        exact ⟨within _ word, holds⟩

/-- A question that is no line. -/
theorem silent {q : Q} {f : A q → Program Q A E R} [Nonempty (A q)]
    (quiet : ∀ a, line ⟨q, a⟩ = none) (rest : ∀ a, Says line (f a) L post) :
    Says line ((Program.question q).bind f) L post := by
  refine question fun a => ⟨L, rest a, fun w word => ?_⟩
  rw [quiet]
  exact word

/-- The rule for two programs in sequence. -/
theorem bind {f : R → Program Q A E R'} {K : Language M} {post' : R' → Prop}
    (first : Says line p L post) (word : ∃ w, w ∈ K)
    (rest : ∀ r, post r → Says line (f r) K post') :
    Says line (p.bind f) (L * K) post' := by
  have joined (before after : List (Exchange Q A)) :
      script line (before ++ after) = script line before ++ script line after :=
    List.filterMap_append ..
  constructor
  · intro trace end_ runs
    rcases runs.of_bind with ⟨end', runs, -⟩ | ⟨before, after, r, rfl, runs, runs'⟩
    · obtain ⟨more, begun⟩ := first.begun _ _ runs
      obtain ⟨w, word⟩ := word
      refine ⟨more ++ w, ?_⟩
      rw [← List.append_assoc]
      exact Language.append_mem_mul begun word
    · obtain ⟨said, holds⟩ := first.finished _ r runs
      obtain ⟨more, begun⟩ := (rest r holds).begun _ _ runs'
      refine ⟨more, ?_⟩
      rw [joined, List.append_assoc]
      exact Language.append_mem_mul said begun
  · intro trace r' runs
    rcases runs.of_bind with ⟨end', -, unfinished⟩ | ⟨before, after, r, rfl, runs, runs'⟩
    · exact absurd rfl (unfinished r')
    · obtain ⟨said, holds⟩ := first.finished _ r runs
      obtain ⟨said', holds'⟩ := (rest r holds).finished _ r' runs'
      rw [joined]
      exact ⟨Language.append_mem_mul said said', holds'⟩

/-- A program whose result is put in another form. -/
theorem map {f : R → R'} {post' : R' → Prop} (first : Says line p L post)
    (holds : ∀ r, post r → post' (f r)) :
    Says line (p.bind fun r => .done (f r)) L post' := by
  have both := first.bind (K := 1) ⟨[], rfl⟩ fun r kept => .done rfl (holds r kept)
  rwa [mul_one] at both

end Says

end Program
