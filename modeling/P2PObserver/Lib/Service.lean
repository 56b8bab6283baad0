import Mathlib.Algebra.BigOperators.Group.List.Basic
import Mathlib.Algebra.Order.BigOperators.Group.List
import Mathlib.Algebra.Ring.Nat
import P2PObserver.Lib.Program

/-! # Programs and what serves them

A service answers a program's questions from a state of its own. A program is verified against
a service by what it asks in which state and by what its ends leave; several programs on one
service interleave, one question at a time.
-/

/-- What a question may be answered in a state, and the state that leaves. -/
abbrev Service (Q : Type) (A : Q → Type) (S : Type) := S → (q : Q) → A q → S → Prop

namespace Service

variable {Q : Type} {A : Q → Type} {S : Type} {service : Service Q A S}

/-- The answers of a service that meet a condition in the state they are given in. -/
def restrict (service : Service Q A S) (cond : S → (q : Q) → A q → Prop) : Service Q A S :=
  fun s q a s' => service s q a s' ∧ cond s q a

/-- A trace, answered one question after the other. -/
inductive Serves (service : Service Q A S) : S → List (Exchange Q A) → S → Prop where
  | nil (s : S) : Serves service s [] s
  | cons {s s' s'' : S} {x : Exchange Q A} {rest : List (Exchange Q A)} :
      service s x.1 x.2 s' → Serves service s' rest s'' → Serves service s (x :: rest) s''

theorem serves_append {first rest : List (Exchange Q A)} {s s'' : S} :
    Serves service s (first ++ rest) s'' ↔
      ∃ s', Serves service s first s' ∧ Serves service s' rest s'' := by
  induction first generalizing s with
  | nil =>
      constructor
      · intro serves
        exact ⟨s, .nil s, serves⟩
      · intro both
        obtain ⟨_, ended, serves⟩ := both
        cases ended
        exact serves
  | cons x first ih =>
      constructor
      · intro serves
        cases serves with
        | cons step serves =>
            obtain ⟨s', front, back⟩ := ih.mp serves
            exact ⟨s', .cons step front, back⟩
      · intro both
        obtain ⟨s', front, back⟩ := both
        cases front with
        | cons step front => exact .cons step (ih.mpr ⟨s', front, back⟩)

end Service

namespace Program

variable {Q : Type} {A : Q → Type} {S E R R' : Type}

/-- What is left of a program after a trace. -/
inductive Reaches : Program Q A E R → List (Exchange Q A) → Program Q A E R → Prop where
  | here (p : Program Q A E R) : Reaches p [] p
  | ask {q : Q} {next : A q → Program Q A E R} {a : A q} {trace : List (Exchange Q A)}
      {p : Program Q A E R} : Reaches (next a) trace p → Reaches (ask q next) (⟨q, a⟩ :: trace) p

theorem Reaches.runs {p p' : Program Q A E R} {trace : List (Exchange Q A)}
    (reaches : Reaches p trace p') : Runs p trace none := by
  induction reaches with
  | here p => exact .stopped p
  | ask _ ih => exact .ask ih

/-! ## Verification against a service -/

section Meets

variable {service : Service Q A S} {ok : S → Q → Prop}

/-- Every question is asked in a state that allows it, and every end leaves a state of the
    postcondition. -/
def meets (service : Service Q A S) (ok : S → Q → Prop) :
    Program Q A E R → (S → Except E R → Prop) → S → Prop
  | done r, post, s => post s (.ok r)
  | fail e, post, s => post s (.error e)
  | ask q next, post, s =>
      ok s q ∧ ∀ a s', service s q a s' → meets service ok (next a) post s'
  | running, _, _ => True

/-- The rule for a question and what follows its answer. -/
theorem meets_question_bind {q : Q} {f : A q → Program Q A E R} {post : S → Except E R → Prop}
    {s : S} (allowed : ok s q)
    (rest : ∀ a s', service s q a s' → meets service ok (f a) post s') :
    meets service ok ((question q).bind f) post s := ⟨allowed, rest⟩

/-- The rule for a program in sequence. -/
theorem meets_bind_of {p : Program Q A E R} {f : R → Program Q A E R'}
    {mid : S → Except E R → Prop} {post : S → Except E R' → Prop} {s : S}
    (first : meets service ok p mid s)
    (good : ∀ s r, mid s (.ok r) → meets service ok (f r) post s)
    (error : ∀ s e, mid s (.error e) → post s (.error e)) :
    meets service ok (p.bind f) post s := by
  induction p generalizing s with
  | done r => exact good s r first
  | fail e => exact error s e first
  | running => trivial
  | ask q next ih => exact ⟨first.1, fun a s' answer => ih a (first.2 a s' answer)⟩

theorem meets_mono {p : Program Q A E R} {post post' : S → Except E R → Prop} {s : S}
    (holds : meets service ok p post s) (weaker : ∀ s end_, post s end_ → post' s end_) :
    meets service ok p post' s := by
  induction p generalizing s with
  | done r => exact weaker _ _ holds
  | fail e => exact weaker _ _ holds
  | running => trivial
  | ask q next ih => exact ⟨holds.1, fun a s' answer => ih a (holds.2 a s' answer)⟩

/-- What holds whatever a service answers holds of some of its answers. -/
theorem meets_restrict {cond : S → (q : Q) → A q → Prop} {p : Program Q A E R}
    {post : S → Except E R → Prop} {s : S} (holds : meets service ok p post s) :
    meets (service.restrict cond) ok p post s := by
  induction p generalizing s with
  | done r => exact holds
  | fail e => exact holds
  | running => trivial
  | ask q next ih => exact ⟨holds.1, fun a s' answer => ih a (holds.2 a s' answer.1)⟩

/-- A program whose questions leave what a service is in. -/
theorem meets_of_keeps {allowed : Q → Prop} (inv : S → Prop) {p : Program Q A E R}
    {post : Except E R → Prop} {s : S}
    (holds : wp (Monitor.only A allowed) p (fun _ => post) ()) (begin_ : inv s)
    (still : ∀ s q, inv s → allowed q → ok s q ∧ ∀ a s', service s q a s' → inv s') :
    meets service ok p (fun s' end_ => inv s' ∧ post end_) s := by
  induction p generalizing s with
  | done r => exact ⟨begin_, holds⟩
  | fail e => exact ⟨begin_, holds⟩
  | running => trivial
  | ask q next ih =>
      obtain ⟨ok, keeps⟩ := still s q begin_ holds.1
      exact ⟨ok, fun a s' answer => ih a (holds.2 a) (keeps a s' answer)⟩

/-- A program whose questions leave the service where it is. -/
theorem meets_of_only {allowed : Q → Prop} {p : Program Q A E R} {post : Except E R → Prop}
    {s : S} (holds : wp (Monitor.only A allowed) p (fun _ => post) ())
    (still : ∀ q, allowed q → ok s q ∧ ∀ a s', service s q a s' → s' = s) :
    meets service ok p (fun s' end_ => s' = s ∧ post end_) s := by
  apply meets_of_keeps (· = s) holds rfl
  intro s' q same asked
  obtain rfl : s' = s := same
  exact still q asked

/-- What is left of a program meets what the program met. -/
theorem Reaches.meets {p p' : Program Q A E R} {trace : List (Exchange Q A)}
    (reaches : Reaches p trace p') {s s' : S} (serves : service.Serves s trace s')
    {post : S → Except E R → Prop} (holds : Program.meets service ok p post s) :
    Program.meets service ok p' post s' := by
  induction reaches generalizing s with
  | here p =>
      cases serves
      exact holds
  | ask _ ih =>
      cases serves with
      | cons answer serves => exact ih serves (holds.2 _ _ answer)

end Meets

/-! ## Playing -/

/-- The run of a program against answers that are a function of the state, until there is none. -/
def against (answer : S → (q : Q) → Option (A q × S)) :
    Program Q A E R → S → List (Exchange Q A) × Program Q A E R × S
  | ask q next, s =>
      match answer s q with
      | none => ([], ask q next, s)
      | some (a, s') =>
          let (trace, p, s'') := (next a).against answer s'
          (⟨q, a⟩ :: trace, p, s'')
  | p, s => ([], p, s)

theorem against_spec {service : Service Q A S} {answer : S → (q : Q) → Option (A q × S)}
    (serves : ∀ s q a s', answer s q = some (a, s') → service s q a s')
    (p : Program Q A E R) (s : S) :
    Reaches p (p.against answer s).1 (p.against answer s).2.1 ∧
      service.Serves s (p.against answer s).1 (p.against answer s).2.2 := by
  induction p generalizing s with
  | done r => exact ⟨.here _, .nil s⟩
  | fail e => exact ⟨.here _, .nil s⟩
  | running => exact ⟨.here _, .nil s⟩
  | ask q next ih =>
      unfold against
      cases got : answer s q with
      | none => exact ⟨.here _, .nil s⟩
      | some reply =>
          obtain ⟨reaches, served⟩ := ih reply.1 reply.2
          exact ⟨.ask reaches, .cons (serves s q _ _ got) served⟩

/-! ## Interleavings -/

section Interleaving

variable {ι : Type} [DecidableEq ι]

/-- The part of a trace that is one program's own. -/
def own (i : ι) (trace : List (ι × Exchange Q A)) : List (Exchange Q A) :=
  (trace.filter (·.1 = i)).map Prod.snd

theorem own_append (i : ι) (trace more : List (ι × Exchange Q A)) :
    own i (trace ++ more) = own i trace ++ own i more := by
  simp [own]

theorem own_map_mk (i j : ι) (trace : List (Exchange Q A)) :
    own i (trace.map (Prod.mk j)) = if j = i then trace else [] := by
  unfold own
  rw [List.filter_map]
  split
  · rename_i same
    simp [Function.comp_def, same]
  · rename_i other
    simp [Function.comp_def, other]

/-- A trace of several programs on one service, one question at a time. -/
structure Interleaving (service : Service Q A S) (programs : ι → Program Q A E R) (s : S)
    (trace : List (ι × Exchange Q A)) (s' : S) : Prop where
  runs : ∀ i, Runs (programs i) (own i trace) none
  serves : service.Serves s (trace.map Prod.snd) s'

/-- What is bounded for every program is bounded for them all. -/
theorem sum_le_of_own {f g : ι → Exchange Q A → Nat} (trace : List (ι × Exchange Q A))
    (each : ∀ i, ((own i trace).map (f i)).sum ≤ ((own i trace).map (g i)).sum) :
    (trace.map fun x => f x.1 x.2).sum ≤ (trace.map fun x => g x.1 x.2).sum := by
  induction size : trace.length using Nat.strong_induction_on generalizing trace with
  | _ n ih =>
      cases trace with
      | nil => exact Nat.le_refl 0
      | cons x rest =>
          -- The first program's part, and the others'.
          have split (h : ι → Exchange Q A → Nat) :
              ((x :: rest).map fun y => h y.1 y.2).sum = ((own x.1 (x :: rest)).map (h x.1)).sum +
                (((x :: rest).filter (·.1 ≠ x.1)).map fun y => h y.1 y.2).sum := by
            have parts := List.sum_map_ite (fun y : ι × Exchange Q A => y.1 = x.1)
              (fun y => h y.1 y.2) (fun y => h y.1 y.2) (x :: rest)
            simp only [ite_self] at parts
            rw [parts, own, List.map_map]
            congr 2
            apply List.map_congr_left
            intro y listed
            have its : y.1 = x.1 := by simpa using (List.mem_filter.mp listed).2
            rw [Function.comp_apply, its]
          have shorter : ((x :: rest).filter (·.1 ≠ x.1)).length < n := by
            rw [← size]
            simp only [List.filter_cons, ne_eq, not_true_eq_false, decide_false, List.length_cons,
              Nat.lt_succ_iff]
            exact List.length_filter_le ..
          rw [split f, split g]
          apply Nat.add_le_add (each x.1)
          apply ih _ shorter _ _ rfl
          intro i
          by_cases first : i = x.1
          · simp [own, first, List.filter_filter]
          · have same : own i ((x :: rest).filter (·.1 ≠ x.1)) = own i (x :: rest) := by
              unfold own
              rw [List.filter_filter]
              congr 1
              apply List.filter_congr
              intro y _
              by_cases its : y.1 = i
              · simp [its, first]
              · simp [its]
            rw [same]
            exact each i

end Interleaving

end Program
