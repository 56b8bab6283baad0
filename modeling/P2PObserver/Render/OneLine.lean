import P2PObserver.Lib.Digits
import P2PObserver.Lib.Slices

/-! # Text on one line

A text with its control characters escaped, written at once by the renderer and piece by piece by
the observer's log.
-/

namespace P2PObserver

/-- `char::is_control`. -/
def isControl (c : Char) : Bool := c.toNat < 0x20 || (0x7f ≤ c.toNat && c.toNat < 0xa0)

/-- `char::escape_debug` of a control character. -/
def escapeDebug (c : Char) : List Char :=
  if c = '\x00' then ['\\', '0']
  else if c = '\t' then ['\\', 't']
  else if c = '\r' then ['\\', 'r']
  else if c = '\n' then ['\\', 'n']
  else "\\u\x7b".toList ++ Nat.toDigits 16 c.toNat ++ ['\x7d']

/-- A field as one line. -/
def oneLine (s : String) : String :=
  if s.toList.any isControl then
    String.ofList (s.toList.flatMap fun c => if isControl c then escapeDebug c else [c])
  else s

/-! ## The log's writer -/

/-- Why a call did not return. -/
inductive Stop where
  /-- A slice inside a character, or a character that is not there. -/
  | panic
  /-- The loop ran longer than it was watched. -/
  | fuel
  deriving DecidableEq

/-- `Escaped::write_str` behind what is written already. -/
def writeStr (out : List Char) (rest : List Char) : Nat → Except Stop (List Char)
  | 0 => .error .fuel
  | fuel + 1 =>
      match Slices.find isControl rest with
      | none => .ok (out ++ rest)
      | some at_ =>
          match Slices.cut rest at_ with
          | some (front, c :: _) =>
              match Slices.cut rest (at_ + c.utf8Size) with
              | some (_, rest) => writeStr (out ++ front ++ escapeDebug c) rest fuel
              | none => .error .panic
          | _ => .error .panic

/-- One call after the other, each watched for as long. -/
def writeAll (fuel : Nat) (out : List Char) : List String → Except Stop (List Char)
  | [] => .ok out
  | chunk :: chunks =>
      match writeStr out chunk.toList fuel with
      | .ok out => writeAll fuel out chunks
      | .error stop => .error stop

/-! ## Escaping -/

/-- Each control character escaped. -/
def escaped (text : List Char) : List Char :=
  text.flatMap fun c => if isControl c then escapeDebug c else [c]

theorem escaped_append (text more : List Char) :
    escaped (text ++ more) = escaped text ++ escaped more := List.flatMap_append

theorem escaped_plain {text : List Char} (plain : ∀ c ∈ text, isControl c = false) :
    escaped text = text := by
  have each : ∀ c ∈ text, (if isControl c then escapeDebug c else [c]) = [c] := by
    intro c inside
    rw [plain c inside]
    rfl
  rw [escaped, List.flatMap_congr each, List.flatMap_singleton']

theorem oneLine_toList (s : String) : (oneLine s).toList = escaped s.toList := by
  unfold oneLine
  split
  · rw [String.toList_ofList, escaped]
  · rename_i plain
    refine (escaped_plain fun c inside => ?_).symm
    have harmless := List.any_eq_false.mp (Bool.not_eq_true _ ▸ plain) c inside
    simpa using harmless

theorem digits_printed (n : Nat) : ∀ char ∈ Nat.toDigits 16 n, isControl char = false := by
  intro char inside
  obtain ⟨digit, small, rfl⟩ := Digits.mem_toDigits (by decide) inside
  have all : ∀ i : Fin 16, isControl (Nat.digitChar i.val) = false := by decide
  exact all ⟨digit, small⟩

theorem escapeDebug_printed (c : Char) : ∀ char ∈ escapeDebug c, isControl char = false := by
  have literal {text : List Char} (all : text.all (!isControl ·) = true) :
      ∀ char ∈ text, isControl char = false := fun char inside => by
    simpa using List.all_eq_true.mp all char inside
  intro char inside
  unfold escapeDebug at inside
  split at inside
  · exact literal (by decide) char inside
  · split at inside
    · exact literal (by decide) char inside
    · split at inside
      · exact literal (by decide) char inside
      · split at inside
        · exact literal (by decide) char inside
        · rw [List.mem_append, List.mem_append] at inside
          rcases inside with (front | digit) | last
          · exact literal (by decide) char front
          · exact digits_printed _ char digit
          · exact literal (by decide) char last

theorem escaped_printed (text : List Char) : ∀ char ∈ escaped text, isControl char = false := by
  intro char inside
  obtain ⟨c, -, within⟩ := List.mem_flatMap.mp inside
  split at within
  · exact escapeDebug_printed c char within
  · rename_i plain
    rw [List.mem_singleton.mp within]
    simpa using plain

theorem writeStr_eq (fuel : Nat) : ∀ out rest : List Char, rest.length < fuel →
    writeStr out rest fuel = .ok (out ++ escaped rest) := by
  induction fuel with
  | zero => simp
  | succ fuel ih =>
      intro out rest watched
      rcases Slices.find_spec isControl rest with
        ⟨clean, plain⟩ | ⟨front, c, back, rfl, found, control, plain⟩
      · simp only [writeStr, clean, escaped_plain plain]
      · have first := Slices.cut_append front (c :: back)
        have second := Slices.cut_append (front ++ [c]) back
        have whole : String.utf8Len [c] = c.utf8Size := Nat.zero_add _
        rw [String.utf8Len_append, whole, List.append_assoc, List.singleton_append] at second
        simp only [writeStr, found, first, second]
        rw [List.length_append, List.length_cons] at watched
        have one : escaped (c :: back) = escapeDebug c ++ escaped back := by
          rw [escaped, List.flatMap_cons, if_pos control]
          rfl
        rw [ih _ back (by omega), escaped_append, escaped_plain plain, one]
        simp only [List.append_assoc]

theorem writeAll_eq {fuel : Nat} {chunks : List String}
    (watched : ∀ chunk ∈ chunks, chunk.toList.length < fuel) : ∀ out : List Char,
    writeAll fuel out chunks = .ok (out ++ escaped (String.join chunks).toList) := by
  induction chunks with
  | nil => simp [writeAll, escaped]
  | cons chunk rest ih =>
      intro out
      obtain ⟨here, later⟩ := List.forall_mem_cons.mp watched
      rw [writeAll, writeStr_eq fuel out _ here]
      simp only
      rw [ih later, String.join_cons, String.toList_append, escaped_append, List.append_assoc]

/-- However a text is cut into calls, each call returns, and together they write it as the renderer
    does, without a control character. -/
theorem writeAll_oneLine (chunks : List String) :
    ∃ enough, ∀ fuel, enough < fuel →
      writeAll fuel [] chunks = .ok (oneLine (String.join chunks)).toList ∧
        ∀ char ∈ (oneLine (String.join chunks)).toList, isControl char = false := by
  refine ⟨(String.join chunks).toList.length, fun fuel watched => ?_⟩
  have each : ∀ chunk ∈ chunks, chunk.toList.length < fuel := by
    intro chunk listed
    have part : chunk.toList.length ≤ (String.join chunks).toList.length := by
      obtain ⟨before, after, rfl⟩ := List.append_of_mem listed
      rw [String.join_append, String.join_cons]
      simp only [String.toList_append, List.length_append]
      omega
    omega
  rw [writeAll_eq each, oneLine_toList, List.nil_append]
  exact ⟨rfl, escaped_printed _⟩

end P2PObserver
