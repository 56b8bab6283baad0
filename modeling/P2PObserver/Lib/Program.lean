import Mathlib.Data.List.Induction

/-! # Programs that ask

A program is a tree of questions to its surroundings: whatever the answers, it goes on, ends
with a result or fails. Its runs are read as traces of questions with their answers, and a
monitor that watches the questions gives it a weakest precondition.
-/

/-- `running` is a loop that has not ended yet. -/
inductive Program (Q : Type) (A : Q → Type) (E R : Type) where
  | done (result : R)
  | fail (error : E)
  | ask (question : Q) (next : A question → Program Q A E R)
  | running

/-- A question and the answer it got. -/
abbrev Exchange (Q : Type) (A : Q → Type) := Sigma A

namespace Program

variable {Q : Type} {A : Q → Type} {E E' R R' : Type}

def bind : Program Q A E R → (R → Program Q A E R') → Program Q A E R'
  | done r, f => f r
  | fail e, _ => fail e
  | ask q next, f => ask q fun a => (next a).bind f
  | running, _ => running

instance : Monad (Program Q A E) where
  pure := done
  bind := bind

/-- A question as a program. -/
def question (q : Q) : Program Q A E (A q) := ask q done

/-- Catch the failure of a program. -/
def outcome : Program Q A E R → Program Q A E' (Except E R)
  | done r => done (.ok r)
  | fail e => done (.error e)
  | ask q next => ask q fun a => (next a).outcome
  | running => running

def mapError (f : E → E') : Program Q A E R → Program Q A E' R
  | done r => done r
  | fail e => fail (f e)
  | ask q next => ask q fun a => (next a).mapError f
  | running => running

@[simp] theorem pure_eq (r : R) : (pure r : Program Q A E R) = done r := rfl

@[simp] theorem bind_eq (p : Program Q A E R) (f : R → Program Q A E R') : p >>= f = p.bind f := rfl

/-! ## Monitors -/

/-- A watcher of the questions a program asks. -/
structure Monitor (Q : Type) (A : Q → Type) (S : Type) where
  /-- Whether a question may be asked. -/
  ok : S → Q → Prop
  next : S → (q : Q) → A q → S

section Wp

variable {S : Type} (m : Monitor Q A S)

/-- Every question is one the monitor allows, and every end meets the postcondition. -/
def wp : Program Q A E R → (S → Except E R → Prop) → S → Prop
  | done r, post, s => post s (.ok r)
  | fail e, post, s => post s (.error e)
  | ask q next, post, s => m.ok s q ∧ ∀ a, wp (next a) post (m.next s q a)
  | running, _, _ => True

@[simp] theorem wp_done (r : R) (post : S → Except E R → Prop) (s : S) :
    wp m (done r) post s = post s (.ok r) := rfl

@[simp] theorem wp_fail (e : E) (post : S → Except E R → Prop) (s : S) :
    wp m (fail e) post s = post s (.error e) := rfl

@[simp] theorem wp_running (post : S → Except E R → Prop) (s : S) :
    wp m running post s = True := rfl

@[simp] theorem wp_ask (q : Q) (next : A q → Program Q A E R) (post : S → Except E R → Prop)
    (s : S) : wp m (ask q next) post s = (m.ok s q ∧ ∀ a, wp m (next a) post (m.next s q a)) :=
  rfl

@[simp] theorem wp_question (q : Q) (post : S → Except E (A q) → Prop) (s : S) :
    wp m (question q) post s = (m.ok s q ∧ ∀ a, post (m.next s q a) (.ok a)) := rfl

/-- What a program's end is to do before more of it runs. -/
def andThen (post : S → Except E R' → Prop) (f : R → Program Q A E R') :
    S → Except E R → Prop
  | s, .ok r => wp m (f r) post s
  | s, .error e => post s (.error e)

@[simp] theorem andThen_ok (post : S → Except E R' → Prop) (f : R → Program Q A E R') (s : S)
    (r : R) : andThen m post f s (.ok r) = wp m (f r) post s := rfl

@[simp] theorem andThen_error (post : S → Except E R' → Prop) (f : R → Program Q A E R') (s : S)
    (e : E) : andThen m post f s (.error e) = post s (.error e) := rfl

@[simp] theorem wp_bind (p : Program Q A E R) (f : R → Program Q A E R')
    (post : S → Except E R' → Prop) (s : S) :
    wp m (p.bind f) post s = wp m p (andThen m post f) s := by
  induction p generalizing s with
  | done | fail | running => rfl
  | ask q next ih =>
      simp only [bind, wp_ask]
      exact congrArg (m.ok s q ∧ ·) (forall_congr fun a => ih a _)

@[simp] theorem wp_outcome (p : Program Q A E R) (post : S → Except E' (Except E R) → Prop)
    (s : S) : wp m (p.outcome : Program Q A E' (Except E R)) post s =
      wp m p (fun s end_ => post s (.ok end_)) s := by
  induction p generalizing s with
  | done | fail | running => rfl
  | ask q next ih =>
      simp only [outcome, wp_ask]
      exact congrArg (m.ok s q ∧ ·) (forall_congr fun a => ih a _)

@[simp] theorem wp_mapError (f : E → E') (p : Program Q A E R) (post : S → Except E' R → Prop)
    (s : S) : wp m (p.mapError f) post s = wp m p (fun s end_ => post s (end_.mapError f)) s := by
  induction p generalizing s with
  | done | fail | running => rfl
  | ask q next ih =>
      simp only [mapError, wp_ask]
      exact congrArg (m.ok s q ∧ ·) (forall_congr fun a => ih a _)

variable {m}

/-- The rule for a question and what follows its answer. -/
theorem wp_question_bind {q : Q} {f : A q → Program Q A E R} {post : S → Except E R → Prop}
    {s : S} (ok : m.ok s q) (rest : ∀ a, wp m (f a) post (m.next s q a)) :
    wp m ((question q).bind f) post s := ⟨ok, rest⟩

theorem wp_mono {p : Program Q A E R} {post post' : S → Except E R → Prop} {s : S}
    (holds : wp m p post s) (weaker : ∀ s end_, post s end_ → post' s end_) :
    wp m p post' s := by
  induction p generalizing s with
  | done r => exact weaker _ _ holds
  | fail e => exact weaker _ _ holds
  | running => trivial
  | ask q next ih => exact ⟨holds.1, fun a => ih a (holds.2 a)⟩

/-- The rule for a program in sequence: a specification of its first part, and of the rest
    from wherever that ends. -/
theorem wp_bind_of {p : Program Q A E R} {f : R → Program Q A E R'}
    {mid : S → Except E R → Prop} {post : S → Except E R' → Prop} {s : S}
    (first : wp m p mid s) (ok : ∀ s r, mid s (.ok r) → wp m (f r) post s)
    (error : ∀ s e, mid s (.error e) → post s (.error e)) : wp m (p.bind f) post s := by
  rw [wp_bind]
  apply wp_mono first
  intro s end_ reached
  cases end_ with
  | ok r => exact ok s r reached
  | error e => exact error s e reached

/-- The monitor that only says which questions may be asked. -/
def Monitor.only (A : Q → Type) (p : Q → Prop) : Monitor Q A Unit where
  ok _ q := p q
  next _ _ _ := ()

/-- A program whose questions leave the monitor where it is. -/
theorem wp_of_only {allowed : Q → Prop} {p : Program Q A E R} {post : Except E R → Prop} {s : S}
    (holds : wp (Monitor.only A allowed) p (fun _ => post) ())
    (still : ∀ q, allowed q → m.ok s q ∧ ∀ a, m.next s q a = s) :
    wp m p (fun s' end_ => s' = s ∧ post end_) s := by
  induction p with
  | done r => exact ⟨rfl, holds⟩
  | fail e => exact ⟨rfl, holds⟩
  | running => trivial
  | ask q next ih =>
      obtain ⟨ok, same⟩ := still q holds.1
      refine ⟨ok, fun a => ?_⟩
      rw [same a]
      exact ih a (holds.2 a)

/-- A program whose questions keep something of the monitor. -/
theorem wp_of_keeps {allowed : Q → Prop} {inv : S → Prop} {p : Program Q A E R}
    {post : Except E R → Prop} {s : S} (holds : wp (Monitor.only A allowed) p (fun _ => post) ())
    (begins : inv s)
    (still : ∀ s q, inv s → allowed q → m.ok s q ∧ ∀ a, inv (m.next s q a)) :
    wp m p (fun s' end_ => inv s' ∧ post end_) s := by
  induction p generalizing s with
  | done r => exact ⟨begins, holds⟩
  | fail e => exact ⟨begins, holds⟩
  | running => trivial
  | ask q next ih =>
      obtain ⟨ok, keeps⟩ := still s q begins holds.1
      exact ⟨ok, fun a => ih a (holds.2 a) (keeps a)⟩

/-- Every question is one of these. -/
def Asks (allowed : Q → Prop) (p : Program Q A E R) : Prop :=
  wp (Monitor.only A allowed) p (fun _ _ => True) ()

theorem Asks.bind {allowed : Q → Prop} {p : Program Q A E R} {f : R → Program Q A E R'}
    (first : Asks allowed p) (rest : ∀ r, Asks allowed (f r)) : Asks allowed (p.bind f) := by
  apply wp_bind_of first
  · intro _ r _
    exact rest r
  · intro _ _ _
    trivial

theorem Asks.question {allowed : Q → Prop} {q : Q} {f : A q → Program Q A E R}
    (asked : allowed q) (rest : ∀ a, Asks allowed (f a)) :
    Asks allowed ((Program.question q).bind f) := ⟨asked, rest⟩

theorem Asks.mono {allowed allowed' : Q → Prop} {p : Program Q A E R} (asks : Asks allowed p)
    (more : ∀ q, allowed q → allowed' q) : Asks allowed' p := by
  induction p with
  | done | fail | running => trivial
  | ask q next ih => exact ⟨more q asks.1, fun a => ih a (asks.2 a)⟩

/-- Where such questions leave a monitor, a program of them does. -/
theorem Asks.wp {allowed : Q → Prop} {p : Program Q A E R} {s : S} (asks : Asks allowed p)
    (still : ∀ q, allowed q → m.ok s q ∧ ∀ a, m.next s q a = s) :
    wp m p (fun s' _ => s' = s) s := by
  apply wp_mono (wp_of_only asks still)
  intro s' _ reached
  exact reached.1

end Wp

/-! ## Runs -/

/-- A run, with what was asked and answered; one that is stopped early has no end. -/
inductive Runs : Program Q A E R → List (Exchange Q A) → Option (Except E R) → Prop where
  | stopped (p : Program Q A E R) : Runs p [] none
  | done (r : R) : Runs (done r) [] (some (.ok r))
  | fail (e : E) : Runs (fail e) [] (some (.error e))
  | ask {q : Q} {next : A q → Program Q A E R} {a : A q} {trace : List (Exchange Q A)}
      {end_ : Option (Except E R)} : Runs (next a) trace end_ →
      Runs (ask q next) (⟨q, a⟩ :: trace) end_

namespace Monitor

variable {S : Type} (m : Monitor Q A S)

/-- The monitor after a trace. -/
def after (s : S) (trace : List (Exchange Q A)) : S :=
  trace.foldl (fun s x => m.next s x.1 x.2) s

/-- Every question of a trace was allowed when it was asked. -/
def Accepts : S → List (Exchange Q A) → Prop
  | _, [] => True
  | s, x :: rest => m.ok s x.1 ∧ Accepts (m.next s x.1 x.2) rest

variable {m}

theorem accepts_append {s : S} {before rest : List (Exchange Q A)} :
    m.Accepts s (before ++ rest) ↔ m.Accepts s before ∧ m.Accepts (m.after s before) rest := by
  induction before generalizing s with
  | nil => exact (and_iff_right trivial).symm
  | cons x before ih => exact (and_congr_right fun _ => ih).trans and_assoc.symm

/-- What every allowed question keeps of a trace and where it leads. -/
theorem Accepts.invariant (inv : S → List (Exchange Q A) → Prop) {s : S}
    {trace : List (Exchange Q A)} (accepts : m.Accepts s trace) (begins : inv s [])
    (step : ∀ s before x, inv s before → m.ok s x.1 → inv (m.next s x.1 x.2) (before ++ [x])) :
    inv (m.after s trace) trace := by
  induction trace using List.reverseRecOn with
  | nil => exact begins
  | append_singleton before x ih =>
      obtain ⟨accepts, ok, _⟩ := accepts_append.mp accepts
      rw [after, List.foldl_append]
      exact step _ _ _ (ih accepts) ok

end Monitor

/-- A weakest precondition speaks of every run. -/
theorem Runs.sound {S : Type} {m : Monitor Q A S} {p : Program Q A E R}
    {trace : List (Exchange Q A)} {end_ : Option (Except E R)} (runs : Runs p trace end_)
    {post : S → Except E R → Prop} {s : S} (holds : wp m p post s) :
    m.Accepts s trace ∧ ∀ e, end_ = some e → post (m.after s trace) e := by
  induction runs generalizing s with
  | stopped p => exact ⟨trivial, fun e ended => by cases ended⟩
  | done r =>
      refine ⟨trivial, fun e same => ?_⟩
      cases same
      exact holds
  | fail e =>
      refine ⟨trivial, fun e same => ?_⟩
      cases same
      exact holds
  | ask _ ih =>
      obtain ⟨accepts, reached⟩ := ih (holds.2 _)
      exact ⟨⟨holds.1, accepts⟩, reached⟩

/-- What a program may ask is all that any run of it asks. -/
theorem Runs.allowed {allowed : Q → Prop} {p : Program Q A E R} {trace : List (Exchange Q A)}
    {end_ : Option (Except E R)} (runs : Runs p trace end_)
    (holds : wp (Monitor.only A allowed) p (fun _ _ => True) ()) :
    ∀ x ∈ trace, allowed x.1 := by
  induction runs with
  | stopped | done | fail => simp
  | ask _ ih => exact List.forall_mem_cons.mpr ⟨holds.1, ih (holds.2 _)⟩

/-- The run against surroundings that answer by the number of questions so far. -/
def play (answer : Nat → (q : Q) → A q) : Program Q A E R → Nat →
    List (Exchange Q A) × Option (Except E R)
  | done r, _ => ([], some (.ok r))
  | fail e, _ => ([], some (.error e))
  | ask q next, n =>
      let (trace, end_) := play answer (next (answer n q)) (n + 1)
      (⟨q, answer n q⟩ :: trace, end_)
  | running, _ => ([], none)

theorem play_bind (answer : Nat → (q : Q) → A q) (p : Program Q A E R) (f : R → Program Q A E R')
    (n : Nat) : (p.bind f).play answer n =
      match (p.play answer n).2 with
      | some (.ok r) =>
          ((p.play answer n).1 ++ ((f r).play answer (n + (p.play answer n).1.length)).1,
            ((f r).play answer (n + (p.play answer n).1.length)).2)
      | some (.error e) => ((p.play answer n).1, some (.error e))
      | none => ((p.play answer n).1, none) := by
  induction p generalizing n with
  | done r => rfl
  | fail e => rfl
  | running => rfl
  | ask q next ih =>
      simp only [bind, play, ih]
      split <;> simp [Nat.add_assoc, Nat.add_comm 1]

/-- A program that no answers keep from an end. -/
def Ends : Program Q A E R → Prop
  | done _ => True
  | fail _ => True
  | ask _ next => ∀ a, Ends (next a)
  | running => False

theorem Ends.bind {p : Program Q A E R} {f : R → Program Q A E R'} (first : p.Ends)
    (rest : ∀ r, (f r).Ends) : (p.bind f).Ends := by
  induction p with
  | done r => exact rest r
  | fail e => trivial
  | running => exact first
  | ask q next ih => exact fun a => ih a (first a)

theorem Ends.play {p : Program Q A E R} (ends : p.Ends) (answer : Nat → (q : Q) → A q) (n : Nat) :
    ∃ end_, (p.play answer n).2 = some end_ := by
  induction p generalizing n with
  | done r => exact ⟨_, rfl⟩
  | fail e => exact ⟨_, rfl⟩
  | running => cases ends
  | ask q next ih => exact ih _ (ends _) (n + 1)

theorem runs_play (answer : Nat → (q : Q) → A q) (p : Program Q A E R) (n : Nat) :
    Runs p (p.play answer n).1 (p.play answer n).2 := by
  induction p generalizing n with
  | done r => exact .done r
  | fail e => exact .fail e
  | ask q next ih => exact .ask (ih (answer n q) (n + 1))
  | running => exact .stopped _

end Program
