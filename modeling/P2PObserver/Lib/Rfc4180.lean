import Mathlib.Data.List.Forall2

/-! # Comma-separated values

A reader by the quoting rules of RFC 4180: a field in quotes may hold anything, a doubled quote for
each quote, and a field without them neither quote, comma nor line break. A record ends at any
unquoted CR, LF or CRLF.
-/

namespace Rfc4180

def quote : Char := Char.ofNat 0x22

def comma : Char := ','

def cr : Char := '\r'

def lf : Char := '\n'

/-- What a field must be quoted for. -/
def special (char : Char) : Bool := char = quote || char = comma || char = cr || char = lf

/-- Where in a field the reader stands. -/
inductive Place where
  | start
  | bare
  | quoted
  /-- Behind a quote that ends the field, unless another follows. -/
  | closed
  deriving DecidableEq

structure Reader where
  records : List (List (List Char))
  /-- The whole fields of the record begun. -/
  fields : List (List Char)
  field : List Char
  place : Place
  /-- Whether a record has just ended at a carriage return. -/
  returned : Bool

namespace Reader

def new : Reader := ⟨[], [], [], .start, false⟩

/-- At the start of a field. -/
def fresh (records : List (List (List Char))) (fields : List (List Char)) : Reader :=
  ⟨records, fields, [], .start, false⟩

def push (r : Reader) (char : Char) (place : Place) : Reader :=
  { r with field := r.field ++ [char], place, returned := false }

def endField (r : Reader) : Reader := fresh r.records (r.fields ++ [r.field])

def endRecord (r : Reader) (returned : Bool) : Reader :=
  { fresh (r.records ++ [r.fields ++ [r.field]]) [] with returned }

/-- A character outside quotes that ends a field or a record. -/
def delimit (r : Reader) (char : Char) : Option Reader :=
  if char = comma then some r.endField
  else if char = cr then some (r.endRecord true)
  else if char = lf then
    -- CRLF ends one record and not two.
    if r.returned then some { r with returned := false } else some (r.endRecord false)
  else none

def step (r : Reader) (char : Char) : Option Reader :=
  match r.place with
  | .start =>
      if char = quote then some { r with place := .quoted, returned := false }
      else some ((r.delimit char).getD (r.push char .bare))
  | .bare =>
      if char = quote then none else some ((r.delimit char).getD (r.push char .bare))
  | .quoted =>
      if char = quote then some { r with place := .closed } else some (r.push char .quoted)
  | .closed =>
      if char = quote then some (r.push char .quoted) else r.delimit char

def run (r : Reader) : List Char → Option Reader
  | [] => some r
  | char :: rest => (r.step char).bind (run · rest)

/-- The records at the end of the text; the last line break may be missing. -/
def finish (r : Reader) : Option (List (List (List Char))) :=
  if r.place = .quoted then none
  else if r.place = .start ∧ r.fields = [] then some r.records
  else some (r.records ++ [r.fields ++ [r.field]])

theorem run_append (r : Reader) (text more : List Char) :
    r.run (text ++ more) = (r.run text).bind (run · more) := by
  induction text generalizing r with
  | nil => rfl
  | cons char rest ih =>
      rw [List.cons_append, run, run]
      cases r.step char with
      | none => rfl
      | some next => exact ih next

end Reader

open Rfc4180.Reader

/-- The records of a text, none where it breaks the rules. -/
def read (text : List Char) : Option (List (List (List Char))) :=
  (Reader.new.run text).bind Reader.finish

/-! ## Fields -/

/-- The text of a field: read from the start of one, it is the field, up to what ends it. -/
def Spells (text field : List Char) : Prop :=
  ∀ records fields, ∃ place, place ≠ .quoted ∧
    (fresh records fields).run text = some ⟨records, fields, field, place, false⟩

theorem step_plain {r : Reader} {char : Char} (plain : special char = false)
    (outside : r.place = .start ∨ r.place = .bare) : r.step char = some (r.push char .bare) := by
  simp only [special, Bool.or_eq_false_iff, decide_eq_false_iff_not] at plain
  rcases outside with here | here <;> simp [step, here, delimit, plain]

/-- Text without special characters is a field as it stands. -/
theorem spells_plain {text : List Char} (plain : ∀ char ∈ text, special char = false) :
    Spells text text := by
  intro records fields
  have runs : ∀ (more field : List Char) (place : Place), place = .start ∨ place = .bare →
      (∀ char ∈ more, special char = false) →
      ∃ place', place' ≠ .quoted ∧ Reader.run ⟨records, fields, field, place, false⟩ more =
        some ⟨records, fields, field ++ more, place', false⟩ := by
    intro more
    induction more with
    | nil =>
        intro field place outside _
        refine ⟨place, ?_, by rw [List.append_nil, Reader.run]⟩
        rcases outside with rfl | rfl <;> simp
    | cons char rest ih =>
        intro field place outside plain
        obtain ⟨here, later⟩ := List.forall_mem_cons.mp plain
        obtain ⟨place', unquoted, ran⟩ := ih (field ++ [char]) .bare (.inr rfl) later
        refine ⟨place', unquoted, ?_⟩
        have next : Reader.step ⟨records, fields, field, place, false⟩ char =
            some ⟨records, fields, field ++ [char], .bare, false⟩ := step_plain here outside
        rw [Reader.run, next, Option.bind_some, ran, List.append_assoc, List.singleton_append]
  exact runs text [] .start (.inl rfl) plain

/-- Each quote doubled. -/
def doubled (field : List Char) : List Char :=
  field.flatMap fun char => if char = quote then [quote, quote] else [char]

theorem run_doubled (records : List (List (List Char))) (fields : List (List Char))
    (more : List Char) : ∀ field : List Char,
    Reader.run ⟨records, fields, field, .quoted, false⟩ (doubled more) =
      some ⟨records, fields, field ++ more, .quoted, false⟩ := by
  induction more with
  | nil => simp [doubled, Reader.run]
  | cons char rest ih =>
      intro field
      have later := ih (field ++ [char])
      rw [List.append_assoc, List.singleton_append] at later
      have split : doubled (char :: rest) =
          (if char = quote then [quote, quote] else [char]) ++ doubled rest := rfl
      rw [split, run_append]
      by_cases here : char = quote
      · subst here
        simpa [Reader.run, step, push] using later
      · simpa [Reader.run, step, push, here] using later

/-- Any text is a field in quotes, its own quotes doubled. -/
theorem spells_quoted (field : List Char) : Spells (quote :: doubled field ++ [quote]) field := by
  intro records fields
  refine ⟨.closed, by simp, ?_⟩
  have opened : (fresh records fields).step quote =
      some ⟨records, fields, [], .quoted, false⟩ := by
    simp [step, fresh]
  rw [List.cons_append, Reader.run, opened, Option.bind_some, run_append, run_doubled]
  simp [Reader.run, step]

/-! ## Lines -/

/-- The text of a record, line break included. -/
def Line (text : List Char) (record : List (List Char)) : Prop :=
  ∀ records, (fresh records []).run text = some (fresh (records ++ [record]) [])

theorem run_field {text field : List Char} (spelled : Spells text field)
    (records : List (List (List Char))) (fields : List (List Char)) (rest : List Char) :
    (fresh records fields).run (text ++ comma :: rest) =
      (fresh records (fields ++ [field])).run rest := by
  obtain ⟨place, unquoted, ran⟩ := spelled records fields
  rw [run_append, ran, Option.bind_some, Reader.run]
  cases place with
  | quoted => exact absurd rfl unquoted
  | start | bare | closed => rfl

/-- Fields with more behind them. -/
theorem run_fields {texts fields more : List (List Char)} (records : List (List (List Char)))
    (spelled : List.Forall₂ Spells texts fields) (filled : more ≠ []) (rest : List Char) :
    ∀ done, (fresh records done).run ([comma].intercalate (texts ++ more) ++ rest) =
      (fresh records (done ++ fields)).run ([comma].intercalate more ++ rest) := by
  induction spelled with
  | nil => simp
  | cons here later ih =>
      intro done
      rw [List.cons_append, List.intercalate_cons_of_ne_nil (by simp [filled]), List.append_assoc,
        List.append_assoc, List.singleton_append, run_field here, ih, List.append_assoc,
        List.singleton_append]

/-- Fields with commas between them, and a line feed. -/
theorem line_intercalate {texts fields : List (List Char)}
    (spelled : List.Forall₂ Spells texts fields) (filled : texts ≠ []) :
    Line ([comma].intercalate texts ++ [lf]) fields := by
  intro records
  have runs : ∀ done, (fresh records done).run ([comma].intercalate texts ++ [lf]) =
      .some (fresh (records ++ [done ++ fields]) []) := by
    induction spelled with
    | nil => exact absurd rfl filled
    | @cons text field texts fields here later ih =>
        intro done
        cases later with
        | nil =>
            obtain ⟨place, unquoted, ran⟩ := here records done
            rw [List.intercalate_singleton, run_append, ran, Option.bind_some]
            cases place with
            | quoted => exact absurd rfl unquoted
            | start | bare | closed => rfl
        | cons next rest =>
            rw [List.intercalate_cons_cons, List.append_assoc, List.append_assoc,
              List.singleton_append, run_field here, ih (by simp), List.append_assoc,
              List.singleton_append]
  exact runs []

theorem run_lines {lines : List (List Char)} {read : List (List (List Char))}
    (spelled : List.Forall₂ Line lines read) : ∀ records,
    (fresh records []).run lines.flatten = some (fresh (records ++ read) []) := by
  induction spelled with
  | nil => simp [Reader.run]
  | cons here later ih =>
      intro records
      rw [List.flatten_cons, run_append, here records, Option.bind_some, ih, List.append_assoc,
        List.singleton_append]

theorem read_lines {lines : List (List Char)} {records : List (List (List Char))}
    (spelled : List.Forall₂ Line lines records) : read lines.flatten = some records := by
  rw [read, show Reader.new = fresh [] [] from rfl, run_lines spelled, Option.bind_some,
    List.nil_append]
  rfl

/-! ## What is settled -/

/-- The fields stand at their place, in the record begun or in one that has ended. -/
def Settled (records : List (List (List Char))) (fields : List (List Char)) (r : Reader) : Prop :=
  (r.records = records ∧ fields <+: r.fields) ∨
    ∃ record others, r.records = records ++ record :: others ∧ fields <+: record

/-- The value begins the field being read, or settled behind the fields. -/
def Begun (records : List (List (List Char))) (fields : List (List Char)) (front : List Char)
    (r : Reader) : Prop :=
  (r.records = records ∧ r.fields = fields ∧ front <+: r.field) ∨
    ∃ value, front <+: value ∧ Settled records (fields ++ [value]) r

variable {records : List (List (List Char))} {fields : List (List Char)}

/-- What a character does to a reader. -/
theorem step_cases {r next : Reader} {char : Char} (stepped : r.step char = some next) :
    (next.records = r.records ∧ next.fields = r.fields ∧ r.field <+: next.field) ∨
      (next.records = r.records ∧ next.fields = r.fields ++ [r.field]) ∨
      next.records = r.records ++ [r.fields ++ [r.field]] := by
  have delimited {next : Reader} (ended : r.delimit char = some next) :
      (next.records = r.records ∧ next.fields = r.fields ∧ r.field <+: next.field) ∨
        (next.records = r.records ∧ next.fields = r.fields ++ [r.field]) ∨
        next.records = r.records ++ [r.fields ++ [r.field]] := by
    unfold delimit at ended
    split at ended
    · cases ended
      exact .inr (.inl ⟨rfl, rfl⟩)
    · split at ended
      · cases ended
        exact .inr (.inr rfl)
      · split at ended
        · split at ended <;> cases ended
          · exact .inl ⟨rfl, rfl, List.prefix_rfl⟩
          · exact .inr (.inr rfl)
        · cases ended
  have pushed (place : Place) : (r.push char place).records = r.records ∧
      (r.push char place).fields = r.fields ∧ r.field <+: (r.push char place).field :=
    ⟨rfl, rfl, List.prefix_append ..⟩
  unfold step at stepped
  split at stepped
  · split at stepped
    · cases stepped
      exact .inl ⟨rfl, rfl, List.prefix_rfl⟩
    · cases ended : r.delimit char <;> rw [ended] at stepped <;> cases stepped
      · exact .inl (pushed _)
      · exact delimited ended
  · split at stepped
    · cases stepped
    · cases ended : r.delimit char <;> rw [ended] at stepped <;> cases stepped
      · exact .inl (pushed _)
      · exact delimited ended
  · split at stepped <;> cases stepped
    · exact .inl ⟨rfl, rfl, List.prefix_rfl⟩
    · exact .inl (pushed _)
  · split at stepped
    · cases stepped
      exact .inl (pushed _)
    · exact delimited stepped

theorem Settled.step {r next : Reader} {char : Char} (settled : Settled records fields r)
    (stepped : r.step char = some next) : Settled records fields next := by
  cases settled with
  | inl begun =>
      obtain ⟨rfl, inside⟩ := begun
      rcases step_cases stepped with ⟨same, same', -⟩ | ⟨same, longer⟩ | ended
      · exact .inl ⟨same, same' ▸ inside⟩
      · exact .inl ⟨same, longer ▸ inside.trans (List.prefix_append ..)⟩
      · exact .inr ⟨_, [], ended, inside.trans (List.prefix_append ..)⟩
  | inr ended =>
      obtain ⟨record, others, split, inside⟩ := ended
      rcases step_cases stepped with ⟨same, -⟩ | ⟨same, -⟩ | more
      · exact .inr ⟨record, others, same.trans split, inside⟩
      · exact .inr ⟨record, others, same.trans split, inside⟩
      · exact .inr ⟨record, others ++ [r.fields ++ [r.field]], by rw [more, split]; simp, inside⟩

theorem Settled.run {r last : Reader} {text : List Char} (settled : Settled records fields r)
    (ran : r.run text = some last) : Settled records fields last := by
  induction text generalizing r with
  | nil =>
      cases ran
      exact settled
  | cons char rest ih =>
      obtain ⟨next, stepped, ran⟩ := Option.bind_eq_some_iff.mp ran
      exact ih (settled.step stepped) ran

/-- The record that has the fields, in all that is read. -/
theorem Settled.finish {r : Reader} {all : List (List (List Char))}
    (settled : Settled records fields r) (filled : fields ≠ []) (finished : r.finish = .some all) :
    ∃ record others, all = records ++ record :: others ∧ fields <+: record := by
  unfold Reader.finish at finished
  split at finished
  · cases finished
  · rcases settled with ⟨rfl, there⟩ | ⟨record, others, split, there⟩
    · have more : r.fields ≠ [] := fun empty => filled (List.prefix_nil.mp (empty ▸ there))
      rw [if_neg fun both => more both.2] at finished
      cases finished
      exact ⟨_, [], rfl, there.trans (List.prefix_append ..)⟩
    · split at finished <;> cases finished
      · exact ⟨record, others, split, there⟩
      · exact ⟨record, others ++ [r.fields ++ [r.field]], by rw [split]; simp, there⟩

theorem Begun.step {r next : Reader} {char : Char} {front : List Char}
    (begun : Begun records fields front r) (stepped : r.step char = some next) :
    Begun records fields front next := by
  cases begun with
  | inl reading =>
      obtain ⟨rfl, rfl, inside⟩ := reading
      rcases step_cases stepped with ⟨same, same', longer⟩ | ⟨same, longer⟩ | ended
      · exact .inl ⟨same, same', inside.trans longer⟩
      · exact .inr ⟨r.field, inside, .inl ⟨same, longer ▸ List.prefix_rfl⟩⟩
      · exact .inr ⟨r.field, inside, .inr ⟨_, [], ended, List.prefix_rfl⟩⟩
  | inr settled =>
      obtain ⟨value, inside, settled⟩ := settled
      exact .inr ⟨value, inside, settled.step stepped⟩

theorem Begun.run {front : List Char} {r last : Reader} {text : List Char}
    (begun : Begun records fields front r) (ran : r.run text = some last) :
    Begun records fields front last := by
  induction text generalizing r with
  | nil =>
      cases ran
      exact begun
  | cons char rest ih =>
      obtain ⟨next, stepped, ran⟩ := Option.bind_eq_some_iff.mp ran
      exact ih (begun.step stepped) ran

/-- The value that begins so, in all that is read. -/
theorem Begun.finish {front : List Char} {r : Reader} {all : List (List (List Char))}
    (begun : Begun records fields front r) (filled : fields ≠ [])
    (finished : r.finish = .some all) :
    ∃ value record others, front <+: value ∧ all = records ++ record :: others ∧
      fields ++ [value] <+: record := by
  rcases begun with ⟨rfl, rfl, inside⟩ | ⟨value, inside, settled⟩
  · unfold Reader.finish at finished
    split at finished
    · cases finished
    · rw [if_neg fun both => filled both.2] at finished
      cases finished
      exact ⟨r.field, _, [], inside, rfl, List.prefix_rfl⟩
  · obtain ⟨record, others, split, there⟩ := settled.finish (by simp) finished
    exact ⟨value, record, others, inside, split, there⟩

/-! ## Text that is no field -/

/-- What is read where the text stood: some field that is not the text. -/
def Misread (records : List (List (List Char))) (fields : List (List Char)) (text : List Char)
    (all : List (List (List Char))) : Prop :=
  ∃ value record others, value ≠ text ∧ all = records ++ record :: others ∧
    fields ++ [value] <+: record

theorem Begun.misread {front text : List Char} {r : Reader} {more : List Char}
    {all : List (List (List Char))} (begun : Begun records fields front r) (filled : fields ≠ [])
    (read : (r.run more).bind Reader.finish = .some all)
    (differs : ∀ value, front <+: value → value ≠ text) : Misread records fields text all := by
  obtain ⟨last, ran, finished⟩ := Option.bind_eq_some_iff.mp read
  obtain ⟨value, record, others, inside, split, there⟩ := (begun.run ran).finish filled finished
  exact ⟨value, record, others, differs value inside, split, there⟩

/-- A field that ends where the text does not. -/
theorem ended_misread {r next : Reader} {char : Char} {text more : List Char}
    {all : List (List (List Char))} (ended : r.delimit char = some next)
    (returned : r.returned = false) (differs : r.field ≠ text)
    (read : (next.run more).bind Reader.finish = some all) :
    Misread r.records r.fields text all := by
  have settled : Settled r.records (r.fields ++ [r.field]) next := by
    unfold delimit at ended
    split at ended
    · cases ended
      exact .inl ⟨rfl, List.prefix_rfl⟩
    · split at ended
      · cases ended
        exact .inr ⟨_, [], rfl, List.prefix_rfl⟩
      · split at ended
        · rw [returned] at ended
          cases ended
          exact .inr ⟨_, [], rfl, List.prefix_rfl⟩
        · cases ended
  obtain ⟨last, ran, finished⟩ := Option.bind_eq_some_iff.mp read
  obtain ⟨record, others, split, there⟩ := (settled.run ran).finish (by simp) finished
  exact ⟨r.field, record, others, differs, split, there⟩

theorem delimit_special {r : Reader} {char : Char} (special : special char = true)
    (other : char ≠ quote) : ∃ next, r.delimit char = some next := by
  simp only [Rfc4180.special, Bool.or_eq_true, decide_eq_true_eq] at special
  apply Option.isSome_iff_exists.mp
  unfold delimit
  grind

/-- Outside quotes a special character cuts the field short, or breaks the rules. -/
theorem bare_misread (text : List Char) : ∀ (field : List Char) (place : Place) {rest : List Char}
    {all : List (List (List Char))}, place = .bare ∨ place = .start ∧ text.head? ≠ some quote →
    (∃ char ∈ text, special char = true) →
    (Reader.run ⟨records, fields, field, place, false⟩ (text ++ rest)).bind Reader.finish =
      some all →
    Misread records fields (field ++ text) all := by
  induction text with
  | nil => simp
  | cons char tail ih =>
      intro field place rest all outside bad read
      rw [List.cons_append, Reader.run, Option.bind_assoc] at read
      obtain ⟨next, stepped, read⟩ := Option.bind_eq_some_iff.mp read
      have unquoted : char ≠ quote := by
        rintro rfl
        rcases outside with rfl | ⟨-, other⟩
        · cases stepped
        · exact other rfl
      by_cases special : special char = true
      · obtain ⟨ended, delimited⟩ := delimit_special
          (r := ⟨records, fields, field, place, false⟩) special unquoted
        have same : next = ended := by
          rcases outside with rfl | ⟨rfl, -⟩ <;>
            simpa [step, unquoted, delimited, eq_comm] using stepped
        subst same
        exact ended_misread delimited rfl (by simp) read
      · have plain : Rfc4180.special char = false := by simpa using special
        have next_eq : next = Reader.push ⟨records, fields, field, place, false⟩ char .bare := by
          rw [step_plain plain (by grind)] at stepped
          exact (Option.some.inj stepped).symm
        obtain ⟨other, inside, later⟩ := bad
        have later' : ∃ char ∈ tail, Rfc4180.special char = true := by
          rcases List.mem_cons.mp inside with rfl | inside
          · exact absurd later special
          · exact ⟨other, inside, later⟩
        rw [next_eq] at read
        have := ih (field ++ [char]) .bare (.inl rfl) later' read
        rwa [List.append_assoc, List.singleton_append] at this

/-- A text with a quote next does not begin with another character there. -/
theorem front_differs {field text : List Char} {char : Char} {n : Nat} (positive : 0 < n)
    (other : char ≠ quote) :
    ¬field ++ [char] <+: field ++ (List.replicate n quote ++ text) := by
  obtain ⟨n, rfl⟩ := Nat.exists_eq_succ_of_ne_zero (Nat.pos_iff_ne_zero.mp positive)
  rw [List.prefix_append_right_inj, List.replicate_succ, List.cons_append, List.cons_prefix_cons]
  exact fun both => other both.1

/-- A character read inside quotes where the text has a quote. -/
theorem unquoted_misread {char : Char} {field text more : List Char} {n : Nat}
    {all : List (List (List Char))} (other : char ≠ quote) (positive : 0 < n) (begun : fields ≠ [])
    (read : (Reader.run ⟨records, fields, field, .quoted, false⟩ (char :: more)).bind
      Reader.finish = some all) :
    Misread records fields (field ++ (List.replicate n quote ++ text)) all := by
  have pushed : Reader.step ⟨records, fields, field, .quoted, false⟩ char =
      some ⟨records, fields, field ++ [char], .quoted, false⟩ := by
    simp [step, push, other]
  rw [Reader.run, pushed, Option.bind_some] at read
  have reading : Begun records fields (field ++ [char])
      ⟨records, fields, field ++ [char], .quoted, false⟩ := .inl ⟨rfl, rfl, List.prefix_rfl⟩
  refine reading.misread begun read fun value inside same => ?_
  exact front_differs positive other (same ▸ inside)

/-- Inside quotes a text is read with its quotes halved, and on past the comma behind it where it
    does not close them: it never comes out with more quotes in front. -/
theorem quoted_misread : ∀ (text field : List Char) (n : Nat) {rest : List Char}
    {all : List (List (List Char))}, 0 < n → fields ≠ [] →
    (Reader.run ⟨records, fields, field, .quoted, false⟩ (text ++ comma :: rest)).bind
      Reader.finish = some all →
    Misread records fields (field ++ (List.replicate n quote ++ text)) all
  | [], field, n, rest, all, positive, begun, read => by
      exact unquoted_misread (by decide) positive begun read
  | [char], field, n, rest, all, positive, begun, read => by
      by_cases here : char = quote
      · subst here
        have closes : Reader.delimit ⟨records, fields, field, .closed, false⟩ comma =
            some (fresh records (fields ++ [field])) := rfl
        refine ended_misread closes rfl (fun same => ?_) read
        have longer := congrArg List.length same
        simp at longer
      · exact unquoted_misread here positive begun read
  | char :: next :: tail, field, n, rest, all, positive, begun, read => by
      by_cases here : char = quote
      · subst here
        by_cases again : next = quote
        · subst again
          have ran : Reader.run ⟨records, fields, field, .quoted, false⟩
              (quote :: quote :: (tail ++ comma :: rest)) =
              Reader.run ⟨records, fields, field ++ [quote], .quoted, false⟩
                (tail ++ comma :: rest) := by
            simp [Reader.run, step, push]
          rw [List.cons_append, List.cons_append, ran] at read
          have later := quoted_misread tail (field ++ [quote]) (n + 1) (Nat.succ_pos n) begun read
          have same : field ++ [quote] ++ (List.replicate (n + 1) quote ++ tail) =
              field ++ (List.replicate n quote ++ quote :: quote :: tail) := by
            have first : [quote] ++ List.replicate (n + 1) quote =
                List.replicate n quote ++ [quote, quote] := by
              rw [List.singleton_append, ← List.replicate_succ, List.replicate_succ',
                List.replicate_succ', List.append_assoc]
              rfl
            rw [List.append_assoc, ← List.append_assoc [quote], first]
            simp
          rwa [same] at later
        · have closed : Reader.run ⟨records, fields, field, .quoted, false⟩
              (quote :: next :: (tail ++ comma :: rest)) =
              (Reader.delimit ⟨records, fields, field, .closed, false⟩ next).bind
                (·.run (tail ++ comma :: rest)) := by
            simp [Reader.run, step, again]
          rw [List.cons_append, List.cons_append, closed, Option.bind_assoc] at read
          obtain ⟨ended, delimited, read⟩ := Option.bind_eq_some_iff.mp read
          refine ended_misread delimited rfl (fun same => ?_) read
          have longer := congrArg List.length same
          simp at longer
      · exact unquoted_misread here positive begun read

/-- Text with a special character, as it stands in front of a comma, is not the field read. -/
theorem run_misread {text rest : List Char} {all : List (List (List Char))} (begun : fields ≠ [])
    (bad : ∃ char ∈ text, special char = true)
    (read : ((fresh records fields).run (text ++ comma :: rest)).bind Reader.finish = some all) :
    Misread records fields text all := by
  cases text with
  | nil => simp at bad
  | cons char tail =>
      by_cases here : char = quote
      · subst here
        have opened : (fresh records fields).step quote =
            some ⟨records, fields, [], .quoted, false⟩ := by
          simp [step, fresh]
        rw [List.cons_append, Reader.run, opened, Option.bind_some] at read
        exact quoted_misread tail [] 1 Nat.one_pos begun read
      · exact bare_misread (char :: tail) [] .start (.inr ⟨rfl, by simpa using here⟩) bad read

end Rfc4180
