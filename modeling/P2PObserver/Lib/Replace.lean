import Mathlib.Logic.Function.Basic
import P2PObserver.Lib.Run

/-! # Replacing a file

A file is replaced by writing another next to it, flushing that one and renaming it over the
first. A crash may tear whatever has not been flushed, and may undo the last changes of the
directory; what it leaves under the file's name is always whole.
-/

namespace Storage

/-- The names of files that are replaced as a whole, and of what is written in their place. -/
inductive Name (K : Type) where
  | final (k : K)
  | temporary (k : K)
  deriving DecidableEq

structure File (B : Type) where
  content : List B
  /-- Whether a crash leaves it as it is. -/
  flushed : Bool

abbrev Directory (K : Type) := Name K → Option Nat

/-- What there is to read under each name. -/
abbrev Contents (K B : Type) := K → Option (List B)

/-- Files by number, the directory as it is seen, and the earlier ones a crash may bring back. -/
structure Disk (K B : Type) where
  file : Nat → File B
  unused : Nat
  directory : Directory K
  earlier : List (Directory K)

/-- What a program does to what it writes in a file's place. -/
inductive Op (K B : Type) where
  | create (k : K)
  | write (k : K) (bytes : List B)
  | flush (k : K)
  | rename (k : K)

/-- The bytes in pieces of these sizes, and the rest. -/
def pieces {B : Type} (bytes : List B) : List Nat → List (List B)
  | [] => [bytes]
  | n :: sizes => bytes.take n :: pieces (bytes.drop n) sizes

theorem flatten_pieces {B : Type} (sizes : List Nat) :
    ∀ bytes : List B, (pieces bytes sizes).flatten = bytes := by
  induction sizes with
  | nil => simp [pieces]
  | cons n sizes ih =>
      intro bytes
      rw [pieces, List.flatten_cons, ih, List.take_append_drop]

namespace Disk

variable {K B : Type}

/-- The directories a crash can leave. -/
def directories (d : Disk K B) : List (Directory K) := d.directory :: d.earlier

def draft (d : Disk K B) (k : K) : Option Nat := d.directory (.temporary k)

def setFile (d : Disk K B) (i : Nat) (file : File B) : Disk K B :=
  { d with file := Function.update d.file i file }

/-- Change the directory, with the one there was to fall back to. -/
def setDirectory (d : Disk K B) (directory : Directory K) : Disk K B :=
  { d with directory, earlier := d.directories }

/-- Make a new file and name it. -/
def make [DecidableEq K] (d : Disk K B) (n : Name K) : Disk K B :=
  { (d.setFile d.unused ⟨[], false⟩).setDirectory
      (Function.update d.directory n (some d.unused)) with unused := d.unused + 1 }

def apply [DecidableEq K] (d : Disk K B) : Op K B → Disk K B
  | .create k =>
      match d.draft k with
      | some i => d.setFile i ⟨[], false⟩
      | none => d.make (.temporary k)
  | .write k bytes =>
      match d.draft k with
      | some i => d.setFile i ⟨(d.file i).content ++ bytes, false⟩
      | none => d
  | .flush k =>
      match d.draft k with
      | some i => d.setFile i ⟨(d.file i).content, true⟩
      | none => d
  | .rename k =>
      match d.draft k with
      | some i => d.setDirectory (Function.update
          (Function.update d.directory (.final k) (some i)) (.temporary k) none)
      | none => d

def applyAll [DecidableEq K] (d : Disk K B) (ops : List (Op K B)) : Disk K B :=
  Run.runFrom apply d ops

/-- After a crash the directory is the one so many changes before, and what was not flushed holds
    anything. -/
def crash (d : Disk K B) (back : Nat) (torn : Nat → List B) : Disk K B where
  file i := if (d.file i).flushed then d.file i else ⟨torn i, true⟩
  unused := d.unused
  directory := d.directories.getD back d.directory
  earlier := []

/-- What a directory says is in the files. -/
def contents (d : Disk K B) (directory : Directory K) : Contents K B := fun k =>
  (directory (.final k)).map fun i => (d.file i).content

def read (d : Disk K B) : Contents K B := d.contents d.directory

/-- What a crash can leave in the files, newest first. -/
def states (d : Disk K B) : List (Contents K B) := d.directories.map d.contents

/-- No directory a crash can leave names a file under a final name that is still written to. -/
structure Sound (d : Disk K B) : Prop where
  used : ∀ dir ∈ d.directories, ∀ n i, dir n = some i → i < d.unused
  apart : ∀ dir ∈ d.directories, ∀ n n' i, dir n = some i → dir n' = some i → n = n'
  flushed : ∀ dir ∈ d.directories, ∀ k i, dir (.final k) = some i → (d.file i).flushed = true
  done : ∀ dir ∈ d.directories, ∀ k k' i, dir (.final k) = some i → d.draft k' ≠ some i

/-! ## What does not show -/

/-- A later disk on which every file is as it was, whichever directory a crash brings back. -/
structure Keeps (d later : Disk K B) : Prop where
  sound : later.Sound
  read : later.read = d.read
  states : ∀ v ∈ later.states, v ∈ d.states

theorem Sound.keeps {d : Disk K B} (sound : d.Sound) : d.Keeps d := ⟨sound, rfl, fun _ here => here⟩

theorem Keeps.trans {d later last : Disk K B} (first : d.Keeps later) (second : later.Keeps last) :
    d.Keeps last where
  sound := second.sound
  read := second.read.trans first.read
  states v here := first.states v (second.states v here)

/-- The contents are the same where the files are. -/
theorem contents_congr {d later : Disk K B} {dir dir' : Directory K}
    (named : ∀ k, dir' (.final k) = dir (.final k))
    (files : ∀ k i, dir (.final k) = some i → later.file i = d.file i) :
    later.contents dir' = d.contents dir := by
  funext k
  rw [contents, contents, named]
  cases here : dir (.final k) with
  | none => rfl
  | some i => exact congrArg some (congrArg File.content (files k i here))

/-- Writing to a draft is writing to no file. -/
theorem Sound.setFile {d : Disk K B} (sound : d.Sound) {k : K} {i : Nat}
    (draft : d.draft k = some i) (file : File B) : d.Keeps (d.setFile i file) := by
  have other {dir : Directory K} (known : dir ∈ d.directories) (k' : K) (j : Nat)
      (named : dir (.final k') = some j) : (d.setFile i file).file j = d.file j := by
    refine Function.update_of_ne ?_ _ _
    rintro rfl
    exact sound.done dir known k' k j named draft
  have same {dir : Directory K} (known : dir ∈ d.directories) :
      (d.setFile i file).contents dir = d.contents dir :=
    contents_congr (fun _ => rfl) (other known)
  constructor
  · constructor
    · exact sound.used
    · exact sound.apart
    · intro dir known k' j named
      rw [other known k' j named]
      exact sound.flushed dir known k' j named
    · exact sound.done
  · exact same List.mem_cons_self
  · intro v here
    obtain ⟨dir, known, rfl⟩ := List.mem_map.mp here
    rw [same known]
    exact List.mem_map_of_mem known

section Change

variable [DecidableEq K]

theorem make_directory (d : Disk K B) (n : Name K) :
    (d.make n).directory = Function.update d.directory n (some d.unused) := rfl

/-- A new draft is no file yet. -/
theorem Sound.make {d : Disk K B} (sound : d.Sound) (k : K) : d.Keeps (d.make (.temporary k)) := by
  have old {dir : Directory K} (known : dir ∈ d.directories) (n : Name K) (i : Nat)
      (named : dir n = some i) : i ≠ d.unused := Nat.ne_of_lt (sound.used dir known n i named)
  have other {dir : Directory K} (known : dir ∈ d.directories) (n : Name K) (i : Nat)
      (named : dir n = some i) : (d.make (.temporary k)).file i = d.file i :=
    Function.update_of_ne (old known n i named) _ _
  have now (k' : K) : (d.make (.temporary k)).directory (.final k') = d.directory (.final k') := by
    rw [make_directory, Function.update_of_ne (by simp)]
  -- under final names the new directory is the one before
  have earlier {dir : Directory K} (known : dir ∈ (d.make (.temporary k)).directories) :
      ∃ dir' ∈ d.directories, ∀ k', dir (.final k') = dir' (.final k') := by
    rcases List.mem_cons.mp known with rfl | known
    · exact ⟨d.directory, List.mem_cons_self, now⟩
    · exact ⟨dir, known, fun _ => rfl⟩
  have named_new {n : Name K} {i : Nat} (named : (d.make (.temporary k)).directory n = some i) :
      n = .temporary k ∧ i = d.unused ∨ n ≠ .temporary k ∧ d.directory n = some i := by
    by_cases here : n = .temporary k
    · rw [make_directory, here, Function.update_self] at named
      exact .inl ⟨here, (Option.some.inj named).symm⟩
    · rw [make_directory, Function.update_of_ne here] at named
      exact .inr ⟨here, named⟩
  have recent : d.directory ∈ d.directories := List.mem_cons_self
  constructor
  · constructor
    · intro dir known n i named
      rcases List.mem_cons.mp known with rfl | known
      · rcases named_new named with ⟨-, rfl⟩ | ⟨-, named⟩
        · exact Nat.lt_succ_self _
        · exact Nat.lt_succ_of_lt (sound.used _ recent n i named)
      · exact Nat.lt_succ_of_lt (sound.used dir known n i named)
    · intro dir known n n' i named named'
      rcases List.mem_cons.mp known with rfl | known
      · rcases named_new named with ⟨rfl, rfl⟩ | ⟨-, named⟩
        · rcases named_new named' with ⟨rfl, -⟩ | ⟨-, named'⟩
          · rfl
          · exact absurd rfl (old recent n' _ named')
        · rcases named_new named' with ⟨-, rfl⟩ | ⟨-, named'⟩
          · exact absurd rfl (old recent n _ named)
          · exact sound.apart _ recent n n' i named named'
      · exact sound.apart dir known n n' i named named'
    · intro dir known k' i named
      obtain ⟨dir', known', same⟩ := earlier known
      rw [same] at named
      rw [other known' _ i named]
      exact sound.flushed dir' known' k' i named
    · intro dir known k' k'' i named draft
      obtain ⟨dir', known', same⟩ := earlier known
      rw [same] at named
      rcases named_new draft with ⟨-, rfl⟩ | ⟨-, draft⟩
      · exact old known' _ _ named rfl
      · exact sound.done dir' known' k' k'' i named draft
  · exact contents_congr now fun k' i => other recent _ i
  · intro v here
    obtain ⟨dir, known, rfl⟩ := List.mem_map.mp here
    obtain ⟨dir', known', same⟩ := earlier known
    rw [contents_congr same fun k' i => other known' _ i]
    exact List.mem_map_of_mem known'

theorem Sound.write {d : Disk K B} (sound : d.Sound) (k : K) (bytes : List B) :
    d.Keeps (d.apply (.write k bytes)) := by
  rw [apply]
  split
  · exact sound.setFile ‹_› _
  · exact sound.keeps

/-! ## What does -/

/-- One file of a disk has been replaced by another, whole. -/
structure Replaced (d later : Disk K B) (k : K) (content : List B) : Prop where
  sound : later.Sound
  read : later.read = Function.update d.read k (some content)
  states : ∀ v ∈ later.states, v = later.read ∨ v ∈ d.states

theorem Keeps.replaced {d later last : Disk K B} {k : K} {content : List B} (first : d.Keeps later)
    (second : later.Replaced last k content) : d.Replaced last k content where
  sound := second.sound
  read := by rw [second.read, first.read]
  states v here := (second.states v here).imp_right (first.states v)

/-- The draft of a file, as far as it has been written. -/
def Drafted (d : Disk K B) (k : K) (file : File B) : Prop :=
  ∃ i, d.draft k = some i ∧ d.file i = file

omit [DecidableEq K] in
theorem Drafted.setFile {d : Disk K B} {k : K} {i : Nat} (draft : d.draft k = some i)
    (file : File B) : (d.setFile i file).Drafted k file := ⟨i, draft, Function.update_self ..⟩

/-- Creating a draft starts it anew. -/
theorem Sound.create {d : Disk K B} (sound : d.Sound) (k : K) :
    d.Keeps (d.apply (.create k)) ∧ (d.apply (.create k)).Drafted k ⟨[], false⟩ := by
  rw [apply]
  split
  · rename_i i draft
    exact ⟨sound.setFile draft _, .setFile draft _⟩
  · exact ⟨sound.make k, d.unused, Function.update_self .., Function.update_self ..⟩

theorem Drafted.write {d : Disk K B} {k : K} {content : List B} {f : Bool}
    (drafted : d.Drafted k ⟨content, f⟩) (bytes : List B) :
    (d.apply (.write k bytes)).Drafted k ⟨content ++ bytes, false⟩ := by
  obtain ⟨i, draft, written⟩ := drafted
  rw [apply, draft]
  dsimp only
  rw [written]
  exact .setFile draft _

theorem Drafted.flush {d : Disk K B} {k : K} {content : List B} {f : Bool}
    (drafted : d.Drafted k ⟨content, f⟩) (sound : d.Sound) :
    d.Keeps (d.apply (.flush k)) ∧ (d.apply (.flush k)).Drafted k ⟨content, true⟩ := by
  obtain ⟨i, draft, written⟩ := drafted
  rw [apply, draft]
  dsimp only
  rw [written]
  exact ⟨sound.setFile draft _, .setFile draft _⟩

/-- Renaming a flushed draft replaces the file. -/
theorem Drafted.rename {d : Disk K B} {k : K} {content : List B}
    (drafted : d.Drafted k ⟨content, true⟩) (sound : d.Sound) :
    d.Replaced (d.apply (.rename k)) k content := by
  obtain ⟨i, draft, written⟩ := drafted
  have recent : d.directory ∈ d.directories := List.mem_cons_self
  generalize later : d.apply (.rename k) = after
  rw [apply, draft] at later
  dsimp only at later
  have file : after.file = d.file := by rw [← later]; rfl
  have unused : after.unused = d.unused := by rw [← later]; rfl
  have directories : after.directories = after.directory :: d.directories := by rw [← later]; rfl
  have directory : after.directory =
      Function.update (Function.update d.directory (.final k) (some i)) (.temporary k) none := by
    rw [← later]; rfl
  have final_self : after.directory (.final k) = some i := by
    rw [directory, Function.update_of_ne (by simp), Function.update_self]
  have final_other {k' : K} (other : k' ≠ k) :
      after.directory (.final k') = d.directory (.final k') := by
    rw [directory, Function.update_of_ne (by simp), Function.update_of_ne (by simpa using other)]
  have named_new {n : Name K} {j : Nat} (named : after.directory n = some j) :
      n = .final k ∧ j = i ∨ n ≠ .temporary k ∧ d.directory n = some j := by
    by_cases isFinal : n = .final k
    · subst isFinal
      rw [final_self] at named
      exact .inl ⟨rfl, (Option.some.inj named).symm⟩
    by_cases isDraft : n = .temporary k
    · rw [directory, isDraft, Function.update_self] at named
      cases named
    rw [directory, Function.update_of_ne isDraft, Function.update_of_ne isFinal] at named
    exact .inr ⟨isDraft, named⟩
  constructor
  · constructor
    · intro dir known n j named
      rw [unused]
      rw [directories] at known
      rcases List.mem_cons.mp known with rfl | known
      · rcases named_new named with ⟨-, rfl⟩ | ⟨-, named⟩
        · exact sound.used _ recent _ _ draft
        · exact sound.used _ recent n j named
      · exact sound.used dir known n j named
    · intro dir known n n' j named named'
      rw [directories] at known
      rcases List.mem_cons.mp known with rfl | known
      · rcases named_new named with ⟨rfl, rfl⟩ | ⟨notDraft, named⟩
        · rcases named_new named' with ⟨rfl, -⟩ | ⟨notDraft, named'⟩
          · rfl
          · exact absurd (sound.apart _ recent _ _ _ named' draft) notDraft
        · rcases named_new named' with ⟨rfl, rfl⟩ | ⟨-, named'⟩
          · exact absurd (sound.apart _ recent _ _ _ named draft) notDraft
          · exact sound.apart _ recent n n' j named named'
      · exact sound.apart dir known n n' j named named'
    · intro dir known k' j named
      rw [file]
      rw [directories] at known
      rcases List.mem_cons.mp known with rfl | known
      · rcases named_new named with ⟨-, rfl⟩ | ⟨-, named⟩
        · rw [written]
        · exact sound.flushed _ recent k' j named
      · exact sound.flushed dir known k' j named
    · intro dir known k' k'' j named drafted
      rcases named_new drafted with ⟨isFinal, -⟩ | ⟨notDraft, drafted⟩
      · cases isFinal
      rw [directories] at known
      rcases List.mem_cons.mp known with rfl | known
      · rcases named_new named with ⟨-, rfl⟩ | ⟨-, named⟩
        · exact notDraft (sound.apart _ recent _ _ _ drafted draft)
        · exact sound.done _ recent k' k'' j named drafted
      · exact sound.done dir known k' k'' j named drafted
  · funext k'
    by_cases here : k' = k
    · rw [here, Function.update_self, read, contents, final_self, Option.map_some, file, written]
    · rw [Function.update_of_ne here, read, contents, final_other here, file]
      rfl
  · intro v here
    rw [states, directories] at here
    rcases List.mem_cons.mp here with rfl | here
    · exact .inl rfl
    · right
      obtain ⟨dir, known, rfl⟩ := List.mem_map.mp here
      rw [contents_congr (fun _ => rfl) fun k' j _ => congrFun file j]
      exact List.mem_map_of_mem known

/-! ## Replacing -/

/-- What a program does to replace a file, in as many writes as there are chunks. -/
def replace (k : K) (chunks : List (List B)) : List (Op K B) :=
  .create k :: (chunks.map (Op.write k) ++ [Op.flush k, .rename k])

theorem Drafted.rest {k : K} (chunks : List (List B)) : ∀ {d : Disk K B} {content : List B},
    d.Drafted k ⟨content, false⟩ → d.Sound → ∀ n,
      let later := d.applyAll ((chunks.map (Op.write k) ++ [Op.flush k, .rename k]).take n)
      if n < chunks.length + 2 then d.Keeps later
      else d.Replaced later k (content ++ chunks.flatten) := by
  induction chunks with
  | nil =>
      intro d content drafted sound n
      obtain ⟨kept, flushed⟩ := drafted.flush sound
      rcases n with _ | _ | n
      · exact sound.keeps
      · exact kept
      · rw [if_neg (by simp), List.flatten_nil, List.append_nil, List.take_of_length_le (by simp)]
        exact kept.replaced (flushed.rename kept.sound)
  | cons chunk chunks ih =>
      intro d content drafted sound n
      cases n with
      | zero => exact sound.keeps
      | succ n =>
          have kept := sound.write k chunk
          have more := ih (drafted.write chunk) kept.sound n
          rw [List.length_cons, List.flatten_cons, ← List.append_assoc]
          by_cases short : n < chunks.length + 2
          · rw [if_pos short] at more
            rw [if_pos (by omega)]
            exact kept.trans more
          · rw [if_neg short] at more
            rw [if_neg (by omega)]
            exact kept.replaced more

/-- A program that stops before the end has replaced nothing, and there is no other way to see it
    half done. -/
theorem Sound.replace {d : Disk K B} (sound : d.Sound) (k : K) (chunks : List (List B)) (n : Nat) :
    let later := d.applyAll ((Disk.replace k chunks).take n)
    if n < (Disk.replace k chunks).length then d.Keeps later
    else d.Replaced later k chunks.flatten := by
  have length : (Disk.replace k chunks).length = chunks.length + 3 := by simp [Disk.replace]
  rw [length]
  obtain ⟨kept, drafted⟩ := sound.create k
  cases n with
  | zero => exact sound.keeps
  | succ n =>
      have more := drafted.rest chunks kept.sound n
      by_cases short : n < chunks.length + 2
      · rw [if_pos short] at more
        rw [if_pos (by omega)]
        exact kept.trans more
      · rw [if_neg short] at more
        rw [if_neg (by omega)]
        exact kept.replaced more

/-- Replace a file; where it fails, after some of the steps before the last. -/
def save (d : Disk K B) (k : K) (bytes : List B) (sizes : List Nat) (failed : Option Nat) :
    Disk K B :=
  let ops := Disk.replace k (pieces bytes sizes)
  match failed with
  | none => d.applyAll ops
  | some steps => d.applyAll (ops.take (min steps (ops.length - 1)))

theorem Sound.save {d : Disk K B} (sound : d.Sound) (k : K) (bytes : List B) (sizes : List Nat) :
    d.Replaced (d.save k bytes sizes none) k bytes := by
  have whole := sound.replace k (pieces bytes sizes) (Disk.replace k (pieces bytes sizes)).length
  rw [if_neg (Nat.lt_irrefl _), List.take_length, flatten_pieces] at whole
  exact whole

theorem Sound.save_failed {d : Disk K B} (sound : d.Sound) (k : K) (bytes : List B)
    (sizes : List Nat) (steps : Nat) : d.Keeps (d.save k bytes sizes (some steps)) := by
  have cut := sound.replace k (pieces bytes sizes)
    (min steps ((Disk.replace k (pieces bytes sizes)).length - 1))
  have nonempty : 0 < (Disk.replace k (pieces bytes sizes)).length := Nat.succ_pos _
  rw [if_pos (by omega)] at cut
  exact cut

end Change

/-! ## Crashes -/

/-- A crash leaves one of the states there have been, whole. -/
theorem Sound.crash {d : Disk K B} (sound : d.Sound) (back : Nat) (torn : Nat → List B) :
    let later := d.crash back torn
    later.Sound ∧ later.read ∈ d.states ∧ later.states = [later.read] ∧
      (back = 0 → later.read = d.read) := by
  intro later
  have known : later.directory ∈ d.directories := by
    change d.directories.getD back d.directory ∈ d.directories
    rw [List.getD_eq_getElem?_getD]
    cases here : d.directories[back]? with
    | none => exact List.mem_cons_self
    | some dir => exact List.mem_of_getElem? here
  have only {dir : Directory K} (listed : dir ∈ later.directories) : dir = later.directory :=
    List.mem_singleton.mp listed
  have file {dir : Directory K} (known : dir ∈ d.directories) (k : K) (i : Nat)
      (named : dir (.final k) = some i) : later.file i = d.file i :=
    if_pos (sound.flushed dir known k i named)
  have same : later.read = d.contents later.directory := contents_congr (fun _ => rfl) (file known)
  refine ⟨⟨?_, ?_, ?_, ?_⟩, ?_, rfl, ?_⟩
  · intro dir listed n i named
    rw [only listed] at named
    exact sound.used _ known n i named
  · intro dir listed n n' i named named'
    rw [only listed] at named named'
    exact sound.apart _ known n n' i named named'
  · intro dir listed k i named
    rw [only listed] at named
    rw [file known k i named]
    exact sound.flushed _ known k i named
  · intro dir listed k k' i named drafted
    rw [only listed] at named
    cases sound.apart _ known _ _ i named drafted
  · rw [same]
    exact List.mem_map_of_mem known
  · rintro rfl
    exact same

end Disk

end Storage
