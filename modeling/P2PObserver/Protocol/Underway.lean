import P2PObserver.Protocol.Attempts

/-! # Attempts are tasks

The attempts of an observer, taken through their courses, are the tasks of a fleet: what their
code reports is what a task may send, so no address ever has two of them.
-/

namespace P2PObserver

open Program

/-! ## Tasks by address -/

theorem Report.message_addr (report : Report) (addr : PeerAddr) :
    (report.message addr).addr = addr := by
  cases report <;> rfl

/-- What a task has sent and the manager not taken. -/
def Task.messages (t : Task) : List Lifecycle :=
  t.queue.map (Report.message t.addr) ++ t.ended.toList.map (Lifecycle.ended t.addr)

namespace Task

variable {t : Task} (unended : t.ended = none)

include unended

theorem send_messages {report : Report}
    (once : ∀ services version, report = .connected services version → t.connected = false) :
    (t.send report).messages = t.messages ++ [report.message t.addr] := by
  unfold send
  cases report with
  | v1Only => simp [messages, unended]
  | connected services version => simp [messages, unended, once services version rfl]

theorem send_ended (report : Report) : (t.send report).ended = none := by
  unfold send
  cases report <;> grind

theorem finish_messages (outcome : Outcome) :
    (t.finish outcome).messages = t.messages ++ [.ended t.addr outcome] := by
  simp [messages, finish, unended]

end Task

namespace Fleet

variable {f : Fleet} {i : Nat} {t u : Task}

/-- Its address says which task it is. -/
theorem Tracked.index (T : f.Tracked) (found : f.tasks[i]? = some t) {j : Nat}
    (other : f.tasks[j]? = some u) (same : u.addr = t.addr) : j = i := by
  have lookup {k : Nat} {v : Task} (at_ : f.tasks[k]? = some v) :
      ∃ inside : k < f.live.length, f.live[k] = v.addr := by
    obtain ⟨inside, is⟩ := List.getElem?_eq_some_iff.mp at_
    exact ⟨by simpa [live] using inside, by simp [live, is]⟩
  obtain ⟨inside, first⟩ := lookup found
  obtain ⟨inside', second⟩ := lookup other
  exact (T.distinct.getElem_inj_iff).mp (second.trans (same.trans first.symm))

theorem mem_modify_iff (T : f.Tracked) (found : f.tasks[i]? = some t) (change : Task → Task) :
    u ∈ f.tasks.modify i change ↔ u = change t ∨ u ∈ f.tasks ∧ u.addr ≠ t.addr := by
  simp only [List.mem_iff_getElem?, List.getElem?_modify]
  constructor
  · rintro ⟨j, at_⟩
    by_cases here : i = j
    · subst here
      simp only [found, if_true, Option.map_eq_map, Option.map_some, Option.some.injEq] at at_
      exact .inl at_.symm
    · simp only [here, if_false, Option.map_eq_map, Option.map_id'] at at_
      exact .inr ⟨⟨j, at_⟩, fun same => here (T.index found at_ same).symm⟩
  · rintro (rfl | ⟨⟨j, at_⟩, other⟩)
    · exact ⟨i, by simp [found]⟩
    · have elsewhere : i ≠ j := by
        rintro rfl
        rw [found] at at_
        cases at_
        exact other rfl
      exact ⟨j, by simp [elsewhere, at_]⟩

theorem mem_eraseIdx_iff (T : f.Tracked) (found : f.tasks[i]? = some t) :
    u ∈ f.tasks.eraseIdx i ↔ u ∈ f.tasks ∧ u.addr ≠ t.addr := by
  rw [List.mem_eraseIdx_iff_getElem?]
  constructor
  · rintro ⟨j, elsewhere, at_⟩
    exact ⟨List.mem_of_getElem? at_, fun same => elsewhere (T.index found at_ same)⟩
  · rintro ⟨listed, other⟩
    obtain ⟨j, at_⟩ := List.mem_iff_getElem?.mp listed
    refine ⟨j, ?_, at_⟩
    rintro rfl
    rw [found] at at_
    cases at_
    exact other rfl

end Fleet

/-! ## The attempts as tasks -/

section Refines

variable {H : Type}

/-- No two live attempts share an address. -/
def Apart (attempts : List (Attempting H)) : Prop :=
  ∀ (i j : Nat) (x y : Attempting H), attempts[i]? = some x → attempts[j]? = some y →
    x.live = true → y.live = true → x.dial.addr = y.dial.addr → i = j

theorem apart_iff_pairwise {attempts : List (Attempting H)} : Apart attempts ↔
    attempts.Pairwise fun x y => x.live = true → y.live = true → x.dial.addr ≠ y.dial.addr := by
  rw [List.pairwise_iff_getElem]
  constructor
  · intro apart i j inside inside' before live live' same
    have := apart i j _ _ (List.getElem?_eq_getElem inside) (List.getElem?_eq_getElem inside') live
      live' same
    omega
  · intro pairwise i j x y first second live live' same
    obtain ⟨inside, rfl⟩ := List.getElem?_eq_some_iff.mp first
    obtain ⟨inside', rfl⟩ := List.getElem?_eq_some_iff.mp second
    rcases Nat.lt_trichotomy i j with before | here | after
    · exact absurd same (pairwise i j inside inside' before live live')
    · exact here
    · exact absurd same.symm (pairwise j i inside' inside after live' live)

theorem mem_set_self {attempts : List (Attempting H)} {i : Nat} {x : Attempting H}
    (found : attempts[i]? = some x) (x' : Attempting H) : x' ∈ attempts.set i x' :=
  List.mem_iff_getElem?.mpr ⟨i, List.getElem?_set_self (List.getElem?_eq_some_iff.mp found).1⟩

/-- Another attempt than the one that changes. -/
theorem mem_set_of_ne {attempts : List (Attempting H)} {i : Nat} {x y : Attempting H}
    (found : attempts[i]? = some x) (x' : Attempting H) (listed : y ∈ attempts) (other : y ≠ x) :
    y ∈ attempts.set i x' := by
  obtain ⟨j, at_⟩ := List.mem_iff_getElem?.mp listed
  have elsewhere : i ≠ j := by
    rintro rfl
    exact other (Option.some.inj (at_.symm.trans found))
  exact List.mem_iff_getElem?.mpr ⟨j, (List.getElem?_set_ne elsewhere).trans at_⟩

theorem Apart.set {attempts : List (Attempting H)} (apart : Apart attempts) {i : Nat}
    {x x' : Attempting H} (found : attempts[i]? = some x) (dial : x'.dial = x.dial)
    (live : x'.live = true → x.live = true) : Apart (attempts.set i x') := by
  -- at every place stood an attempt on the same address, live if this one is
  have before (j : Nat) (y : Attempting H) (at_ : (attempts.set i x')[j]? = some y) :
      ∃ y₀, attempts[j]? = some y₀ ∧ y₀.dial = y.dial ∧ (y.live = true → y₀.live = true) := by
    rw [List.getElem?_set] at at_
    split at at_
    case isTrue here =>
      subst here
      split at at_
      · cases at_
        exact ⟨x, found, dial.symm, live⟩
      · cases at_
    case isFalse => exact ⟨y, at_, rfl, id⟩
  intro j k y z first second live₁ live₂ same
  obtain ⟨y₀, first, dial₁, is₁⟩ := before j y first
  obtain ⟨z₀, second, dial₂, is₂⟩ := before k z second
  exact apart j k y₀ z₀ first second (is₁ live₁) (is₂ live₂) (by rw [dial₁, dial₂, same])

/-- What stands beside an attempt that changes is not on its address any more. -/
theorem Apart.mem_set {attempts : List (Attempting H)} (apart : Apart attempts) {i : Nat}
    {x y : Attempting H} (found : attempts[i]? = some x) (live : x.live = true)
    {x' : Attempting H} (listed : y ∈ attempts.set i x') :
    y = x' ∨ y ∈ attempts ∧ (y.live = true → y.dial.addr ≠ x.dial.addr) := by
  obtain ⟨j, at_⟩ := List.mem_iff_getElem?.mp listed
  by_cases here : i = j
  · subst here
    rw [List.getElem?_set_self (List.getElem?_eq_some_iff.mp found).1] at at_
    exact .inl (Option.some.inj at_).symm
  · rw [List.getElem?_set_ne here] at at_
    exact .inr ⟨List.mem_of_getElem? at_, fun live' same =>
      here (apart i j x y found at_ live live' same.symm)⟩

variable [SocketText] [DecidableEq H] (net : Network H) (codec : AddrCodec)
  (cfg : ProtocolConfig) (fuel : Nat)

/-- Where an attempt is in its course, and its task in the fleet while it has one. -/
def Attempting.Follows (f : Fleet) (x : Attempting H) : Prop :=
  match x.guard with
  | .untaken => x.rest = attempt net codec cfg fuel x.dial ∧
      ∃ t ∈ f.tasks, t.addr = x.dial.addr ∧ t.ended = none ∧ t.connected = false
  | .held => ∃ c, wp (Course.monitor cfg x.dial.addr) x.rest (fun s _ => s = .done) c ∧
      c ≠ .done ∧ ∃ t ∈ f.tasks, t.addr = x.dial.addr ∧ t.ended = none ∧
        (t.connected = true → ∃ transportVersion, c = .session transportVersion)
  | .dropped => wp (Course.monitor cfg x.dial.addr) x.rest (fun s _ => s = .done) .done

/-- An observer whose attempts are the tasks of a fleet. -/
structure Observer.Refines (s : Observer H) (f : Fleet) : Prop where
  manager : s.manager = f.manager
  tracked : f.Tracked
  queued : ∀ t ∈ f.tasks, s.pending t.addr = t.messages
  idle : ∀ a ∉ f.live, s.pending a = []
  apart : Apart s.attempts
  follows : ∀ x ∈ s.attempts, x.Follows net codec cfg fuel f
  running : ∀ t ∈ f.tasks, t.ended = none →
    ∃ x ∈ s.attempts, x.live = true ∧ x.dial.addr = t.addr

namespace Attempting.Follows

variable {net codec cfg fuel} {f : Fleet} {x : Attempting H}

theorem task (follows : x.Follows net codec cfg fuel f) (live : x.live = true) :
    ∃ t ∈ f.tasks, t.addr = x.dial.addr ∧ t.ended = none := by
  obtain ⟨dial, guard, rest⟩ := x
  cases guard with
  | untaken =>
      obtain ⟨_, t, listed, own, unended, _⟩ := follows
      exact ⟨t, listed, own, unended⟩
  | held =>
      obtain ⟨_, _, _, t, listed, own, unended, _⟩ := follows
      exact ⟨t, listed, own, unended⟩
  | dropped => cases live

/-- What the task of an attempt is to the fleet is all that matters to it. -/
theorem congr {f' : Fleet} (follows : x.Follows net codec cfg fuel f)
    (kept : x.live = true → ∀ t ∈ f.tasks, t.addr = x.dial.addr → t.ended = none →
      ∃ t' ∈ f'.tasks, t'.addr = t.addr ∧ t'.ended = none ∧ t'.connected = t.connected) :
    x.Follows net codec cfg fuel f' := by
  obtain ⟨dial, guard, rest⟩ := x
  cases guard with
  | untaken =>
      obtain ⟨start, t, listed, own, unended, unconnected⟩ := follows
      obtain ⟨t', listed', same, unended', connected⟩ := kept rfl t listed own unended
      exact ⟨start, t', listed', same.trans own, unended', connected.trans unconnected⟩
  | held =>
      obtain ⟨c, course, going, t, listed, own, unended, told⟩ := follows
      obtain ⟨t', listed', same, unended', connected⟩ := kept rfl t listed own unended
      exact ⟨c, course, going, t', listed', same.trans own, unended', connected ▸ told⟩
  | dropped => exact follows

end Attempting.Follows

namespace Observer.Refines

variable {net codec cfg fuel} {s : Observer H} {f : Fleet}

/-- An attempt that goes on and reports nothing. -/
theorem continued (R : s.Refines net codec cfg fuel f) {i : Nat} {x : Attempting H}
    (found : s.attempts[i]? = some x) {x' : Attempting H}
    (follows : x'.Follows net codec cfg fuel f) (dial : x'.dial = x.dial) (live : x'.live = x.live)
    (gossip : List (List Gossiped)) :
    Refines net codec cfg fuel { s with attempts := s.attempts.set i x', gossip } f where
  manager := R.manager
  tracked := R.tracked
  queued := R.queued
  idle := R.idle
  apart := R.apart.set found dial (live ▸ id)
  follows y listed := by
    rcases List.mem_or_eq_of_mem_set listed with listed | rfl
    · exact R.follows y listed
    · exact follows
  running t listed unended := by
    obtain ⟨y, underway, is, own⟩ := R.running t listed unended
    by_cases here : y = x
    · subst here
      exact ⟨x', mem_set_self found x', live.trans is, dial ▸ own⟩
    · exact ⟨y, mem_set_of_ne found x' underway here, is, own⟩

/-- An attempt that reports, and its task that sends the report or is finished. -/
theorem reported (R : s.Refines net codec cfg fuel f) {i : Nat} {x : Attempting H}
    (found : s.attempts[i]? = some x) (live : x.live = true) {j : Nat} {t : Task}
    (task : f.tasks[j]? = some t) (own : t.addr = x.dial.addr) {change : Task → Task}
    (still : ∀ t, (change t).addr = t.addr) {msg : Lifecycle} (about : msg.addr = t.addr)
    (sent : (change t).messages = t.messages ++ [msg]) {x' : Attempting H}
    (follows : x'.Follows net codec cfg fuel { f with tasks := f.tasks.modify j change })
    (dial : x'.dial = x.dial) (running : (change t).ended = none → x'.live = true) :
    Refines net codec cfg fuel
      { s with attempts := s.attempts.set i x', lifecycle := s.lifecycle ++ [msg] }
      { f with tasks := f.tasks.modify j change } where
  manager := R.manager
  tracked := R.tracked.congr (Fleet.live_modify j change still) rfl
  queued u listed := by
    show List.filter _ (s.lifecycle ++ [msg]) = u.messages
    rw [List.filter_append]
    rcases (Fleet.mem_modify_iff R.tracked task change).mp listed with rfl | ⟨listed, other⟩
    · rw [still, sent, ← R.queued t (List.mem_of_getElem? task)]
      simp [pending, about]
    · rw [← R.queued u listed]
      have elsewhere : ¬msg.addr = u.addr := fun same => other (same.symm.trans about)
      simp [pending, elsewhere]
  idle a absent := by
    rw [Fleet.live, Fleet.live_modify j change still] at absent
    have elsewhere : ¬msg.addr = a := by
      rintro rfl
      exact absent (about ▸ List.mem_map_of_mem (List.mem_of_getElem? task))
    show List.filter _ (s.lifecycle ++ [msg]) = []
    rw [List.filter_append, show List.filter _ s.lifecycle = [] from R.idle a absent]
    simp [elsewhere]
  apart := R.apart.set found dial fun _ => live
  follows y listed := by
    rcases R.apart.mem_set found live listed with rfl | ⟨listed, other⟩
    · exact follows
    · apply (R.follows y listed).congr
      intro live' u task' own' unended
      have elsewhere : u.addr ≠ t.addr := by
        rw [own', own]
        exact other live'
      exact ⟨u, (Fleet.mem_modify_iff R.tracked task change).mpr (.inr ⟨task', elsewhere⟩), rfl,
        unended, rfl⟩
  running u listed unended := by
    rcases (Fleet.mem_modify_iff R.tracked task change).mp listed with rfl | ⟨listed, other⟩
    · exact ⟨x', mem_set_self found x', running unended, by rw [dial, still, own]⟩
    · obtain ⟨y, underway, is, own'⟩ := R.running u listed unended
      have elsewhere : y ≠ x := by
        rintro rfl
        exact other (own'.symm.trans own.symm)
      exact ⟨y, mem_set_of_ne found x' underway elsewhere, is, own'⟩

/-- An attempt whose guard is dropped. -/
theorem finished (R : s.Refines net codec cfg fuel f) {i : Nat} {x : Attempting H}
    (found : s.attempts[i]? = some x) (live : x.live = true) (outcome : Outcome)
    {rest : Routine H Unit}
    (silent : wp (Course.monitor cfg x.dial.addr) rest (fun s _ => s = .done) .done) :
    ∃ events, Refines net codec cfg fuel
      { s with
        attempts := s.attempts.set i { x with guard := .dropped, rest }
        lifecycle := s.lifecycle ++ [.ended x.dial.addr outcome] } (f.run events) := by
  obtain ⟨t, listed, own, unended⟩ := (R.follows x (List.mem_of_getElem? found)).task live
  obtain ⟨j, task⟩ := List.mem_iff_getElem?.mp listed
  have about : (Lifecycle.ended x.dial.addr outcome).addr = t.addr := own.symm
  have sent : (t.finish outcome).messages = t.messages ++ [.ended x.dial.addr outcome] := by
    rw [← own]
    exact Task.finish_messages unended outcome
  have follows : Attempting.Follows net codec cfg fuel
      { f with tasks := f.tasks.modify j (·.finish outcome) }
      { x with guard := .dropped, rest } := silent
  have still (t : Task) : (t.finish outcome).addr = t.addr := rfl
  have reported := R.reported found live task own still about sent follows rfl nofun
  exact ⟨[.finish j outcome], reported⟩

/-- The question of an attempt that is still to report its end. -/
theorem asked (R : s.Refines net codec cfg fuel f) {i : Nat} {x : Attempting H}
    (found : s.attempts[i]? = some x) (held : x.guard = .held) {q : Question H}
    {next : Answer q → Routine H Unit} (at_ : x.rest = .ask q next) (a : Answer q) :
    ∃ events, Refines net codec cfg fuel (s.asked i x q (next a)) (f.run events) := by
  have follows := R.follows x (List.mem_of_getElem? found)
  have live : x.live = true := by simp [Attempting.live, held]
  simp only [Attempting.Follows, held, at_] at follows
  obtain ⟨c, ⟨ok, course⟩, going, t, listed, own, unended, told⟩ := follows
  obtain ⟨j, task⟩ := List.mem_iff_getElem?.mp listed
  have course := course a
  -- the code goes on where its course leads, and its task is in the fleet
  have goesOn (f' : Fleet) {t' : Task} (running : c.next q a ≠ .done) (listed : t' ∈ f'.tasks)
      (same : t'.addr = t.addr) (unended : t'.ended = none)
      (told : t'.connected = true → ∃ transportVersion, c.next q a = .session transportVersion) :
      Attempting.Follows net codec cfg fuel f' { x with rest := next a } := by
    simp only [Attempting.Follows, held]
    exact ⟨c.next q a, course, running, t', listed, same.trans own, unended, told⟩
  -- what the manager does not hear of
  have quiet (running : c.next q a ≠ .done)
      (told : t.connected = true → ∃ transportVersion, c.next q a = .session transportVersion)
      (gossip : List (List Gossiped)) : ∃ events, Refines net codec cfg fuel
        { s with attempts := s.attempts.set i { x with rest := next a }, gossip }
        (f.run events) := by
    have follows := goesOn f running listed rfl unended told
    exact ⟨[], R.continued found follows rfl rfl gossip⟩
  have sends (report : Report) (running : c.next q a ≠ .done)
      (once : ∀ services version, report = .connected services version → t.connected = false)
      (told : (t.send report).connected = true → ∃ transportVersion,
        c.next q a = .session transportVersion) : ∃ events, Refines net codec cfg fuel
        { s with
          attempts := s.attempts.set i { x with rest := next a }
          lifecycle := s.lifecycle ++ [report.message t.addr] } (f.run events) := by
    have there : t.send report ∈ f.tasks.modify j (·.send report) :=
      (Fleet.mem_modify_iff R.tracked task _).mpr (.inl rfl)
    have follows := goesOn { f with tasks := f.tasks.modify j (·.send report) } running there
      (Fleet.send_addr t report) (Task.send_ended unended report) told
    exact ⟨[.send j report], R.reported found live task own (Fleet.send_addr · report)
      (report.message_addr t.addr) (Task.send_messages unended once) follows rfl fun _ => live⟩
  cases q with
  | peerId => cases ok
  | tcpConnect | socksConnect =>
      obtain ⟨⟨transport, rfl⟩, _⟩ := ok
      refine quiet ?_ (fun connected => nomatch told connected) s.gossip
      cases a with
      | elapsed => exact Course.noConfusion
      | finished failed => cases failed <;> exact Course.noConfusion
  | bip324Handshake =>
      obtain ⟨transport, rfl, _⟩ := ok
      refine quiet ?_ (fun connected => nomatch told connected) s.gossip
      cases a with
      | elapsed => exact Course.noConfusion
      | finished failed => cases failed <;> exact Course.noConfusion
  | gossip addrs => exact quiet going told _
  | lifecycle msg =>
      cases msg with
      | v1Only addr =>
          obtain ⟨rfl, trying⟩ := ok
          have unconnected : t.connected = false := by
            rw [← Bool.not_eq_true]
            intro connected
            obtain ⟨v, rfl⟩ := told connected
            rcases trying with never | never | never | never <;> cases never
          rw [← own]
          refine sends .v1Only Course.noConfusion (fun _ _ never => by cases never) ?_
          rw [Task.send, unended]
          intro connected
          exact absurd (unconnected.symm.trans connected) Bool.noConfusion
      | connected addr services version =>
          obtain ⟨rfl, speaks⟩ := ok
          have unconnected : t.connected = false := by
            rw [← Bool.not_eq_true]
            intro connected
            obtain ⟨v, rfl⟩ := told connected
            cases speaks
          rw [← own]
          exact sends (.connected services version) Course.noConfusion (fun _ _ _ => unconnected)
            fun _ => ⟨version, rfl⟩
      | ended addr outcome =>
          obtain ⟨rfl, _⟩ := ok
          exact R.finished found live outcome course
  | _ => exact quiet going told s.gossip

theorem answer (R : s.Refines net codec cfg fuel f) (i : Nat)
    (answers : (q : Question H) → Answer q) :
    ∃ events, Refines net codec cfg fuel (s.answer i answers) (f.run events) := by
  unfold Observer.answer
  split
  case h_2 => exact ⟨[], R⟩
  case h_1 x found =>
    split
    case h_2 => exact ⟨[], R⟩
    case h_1 q next at_ =>
      have follows := R.follows x (List.mem_of_getElem? found)
      cases guard : x.guard with
      | held => exact R.asked found guard at_ (answers q)
      | dropped =>
          simp only [Attempting.Follows, guard, at_] at follows
          exact absurd follows.1 (Course.not_allows_done q)
      | untaken =>
          -- the first thing an attempt asks for is its id
          simp only [Attempting.Follows, guard] at follows
          obtain ⟨start, t, listed, own, unended, unconnected⟩ := follows
          rw [at_] at start
          cases start
          have course : wp (Course.monitor cfg x.dial.addr) _ _ (.dialling x.dial.transport) :=
            Course.wp_attemptAs cfg net codec fuel (answers .peerId) x.dial.transport
          have follows : Attempting.Follows net codec cfg fuel f
              { x with
                guard := .held
                rest := attemptAs net codec cfg fuel (answers .peerId) x.dial } :=
            ⟨_, course, nofun, t, listed, own, unended, fun connected =>
              absurd (unconnected.symm.trans connected) Bool.noConfusion⟩
          refine ⟨[], R.continued found follows rfl ?_ s.gossip⟩
          simp [Attempting.live, guard]

theorem panics (R : s.Refines net codec cfg fuel f) (i : Nat) :
    ∃ events, Refines net codec cfg fuel (s.panics i) (f.run events) := by
  unfold Observer.panics
  split
  case h_2 => exact ⟨[], R⟩
  case h_1 x found =>
    split
    case h_2 => exact ⟨[], R⟩
    case h_1 held =>
      exact R.finished found (by simp [Attempting.live, held]) (.failed .other) rfl

/-- A report taken from the front of the queue, the other tasks left as they are. -/
theorem heard (R : s.Refines net codec cfg fuel f) {msg : Lifecycle} {rest : List Lifecycle}
    (queue : s.lifecycle = msg :: rest) {t : Task} (listed : t ∈ f.tasks)
    (own : t.addr = msg.addr) {f' : Fleet} (tracked : f'.Tracked)
    (others : ∀ u, u.addr ≠ t.addr → (u ∈ f'.tasks ↔ u ∈ f.tasks))
    (mine : ∀ u ∈ f'.tasks, u.addr = t.addr →
      (rest.filter fun m => m.addr = t.addr) = u.messages ∧ u.ended = t.ended)
    (kept : t.ended = none →
      ∃ u ∈ f'.tasks, u.addr = t.addr ∧ u.ended = none ∧ u.connected = t.connected)
    (gone : t.addr ∉ f'.live → (rest.filter fun m => m.addr = t.addr) = []) {m : Manager}
    (manager : m = f'.manager) :
    Refines net codec cfg fuel { s with manager := m, lifecycle := rest } f' where
  manager := manager
  tracked := tracked
  queued u listed' := by
    by_cases same : u.addr = t.addr
    · show (rest.filter fun m => m.addr = u.addr) = u.messages
      rw [same]
      exact (mine u listed' same).1
    · have elsewhere : ¬msg.addr = u.addr := fun is => same (is.symm.trans own.symm)
      have before := R.queued u ((others u same).mp listed')
      simpa [pending, queue, elsewhere] using before
  idle a absent := by
    by_cases same : a = t.addr
    · subst same
      exact gone absent
    · have elsewhere : ¬msg.addr = a := fun is => same (is.symm.trans own.symm)
      have before := R.idle a fun present => by
        obtain ⟨u, listed', rfl⟩ := List.mem_map.mp present
        exact absent (List.mem_map_of_mem ((others u same).mpr listed'))
      show (rest.filter fun m => m.addr = a) = []
      rwa [pending, queue, List.filter_cons_of_neg (by simpa using elsewhere)] at before
  apart := R.apart
  follows x underway := by
    apply (R.follows x underway).congr
    intro _ u task _ unended
    by_cases same : u.addr = t.addr
    · rw [List.inj_on_of_nodup_map R.tracked.distinct task listed same] at unended ⊢
      exact kept unended
    · exact ⟨u, (others u same).mpr task, rfl, unended, rfl⟩
  running u listed' unended := by
    by_cases same : u.addr = t.addr
    · rw [(mine u listed' same).2] at unended
      rw [same]
      exact R.running t listed unended
    · exact R.running u ((others u same).mp listed') unended

/-- The manager takes a report. -/
theorem taken (R : s.Refines net codec cfg fuel f) {msg : Lifecycle} {rest : List Lifecycle}
    (queue : s.lifecycle = msg :: rest) (now : UInt32) :
    ∃ events, Refines net codec cfg fuel
      { s with manager := s.manager.apply msg now, lifecycle := rest } (f.run events) := by
  have front : s.pending msg.addr = msg :: rest.filter fun m => m.addr = msg.addr := by
    simp [pending, queue]
  have present : msg.addr ∈ f.live := by
    by_contra absent
    rw [R.idle _ absent] at front
    cases front
  obtain ⟨t, listed, own⟩ := List.mem_map.mp present
  obtain ⟨i, task⟩ := List.mem_iff_getElem?.mp listed
  rw [← own, R.queued t listed] at front
  have tracked := R.tracked.deliver i now
  refine ⟨[.deliver i now], ?_⟩
  show Refines net codec cfg fuel _ (f.deliver i now)
  unfold Fleet.deliver at tracked ⊢
  rw [task] at tracked ⊢
  cases waiting : t.queue with
  | cons report more =>
      simp only [Task.messages, waiting, List.map_cons, List.cons_append, List.cons.injEq] at front
      obtain ⟨is, left⟩ := front
      simp only [waiting, List.set_eq_modify] at tracked ⊢
      have there (u : Task) := Fleet.mem_modify_iff (u := u) R.tracked task
        fun _ => { t with queue := more }
      have stays : { t with queue := more } ∈ f.tasks.modify i fun _ => { t with queue := more } :=
        (there _).mpr (.inl rfl)
      refine R.heard queue listed own tracked ?_ ?_ ?_ ?_ (by rw [R.manager, is])
      · intro u other
        exact (there u).trans (by grind)
      · intro u listed' same
        rcases (there u).mp listed' with rfl | ⟨_, other⟩
        · exact ⟨left.symm, rfl⟩
        · exact absurd same other
      · intro unended
        exact ⟨_, stays, rfl, unended, rfl⟩
      · intro absent
        exact absurd (List.mem_map_of_mem stays) absent
  | nil =>
      cases ended : t.ended with
      | none => simp [Task.messages, waiting, ended] at front
      | some outcome =>
          simp only [Task.messages, waiting, ended, List.map_nil, List.nil_append,
            Option.toList_some, List.map_cons, List.cons.injEq] at front
          obtain ⟨is, left⟩ := front
          simp only [waiting, ended] at tracked ⊢
          refine R.heard queue listed own tracked ?_ ?_ ?_ ?_ (by rw [R.manager, is])
          · intro u other
            exact (Fleet.mem_eraseIdx_iff R.tracked task).trans (and_iff_left other)
          · intro u listed' same
            exact absurd same ((Fleet.mem_eraseIdx_iff R.tracked task).mp listed').2
          · intro unended
            rw [ended] at unended
            cases unended
          · intro _
            exact left.symm

/-- A round of the manager's loop that takes no report, and the dials it hands out. -/
theorem managed (R : s.Refines net codec cfg fuel f) (event : ManagerEvent)
    (other : ∀ msg now, event ≠ .apply msg now)
    (distinct : ((s.manager.next event).2.map Dial.addr).Nodup)
    (fresh : ∀ d ∈ (s.manager.next event).2, d.addr ∉ f.live) (gossip : List (List Gossiped)) :
    Refines net codec cfg fuel
      { s with
        manager := (s.manager.next event).1
        attempts := s.attempts ++ (s.manager.next event).2.map (spawn net codec cfg fuel)
        gossip } (f.step (.manager event)) := by
  have next : f.step (.manager event) =
      { manager := (s.manager.next event).1
        tasks := f.tasks ++ (s.manager.next event).2.map Task.spawn } := by
    rw [R.manager]
    cases event with
    | apply msg now => exact absurd rfl (other msg now)
    | _ => rfl
  have tracked := R.tracked.step (.manager event)
  rw [next] at tracked ⊢
  refine ⟨rfl, tracked, ?_, ?_, ?_, ?_, ?_⟩
  · intro t listed
    rcases List.mem_append.mp listed with listed | listed
    · exact R.queued t listed
    · obtain ⟨d, taken, rfl⟩ := List.mem_map.mp listed
      exact R.idle _ (fresh d taken)
  · intro a absent
    apply R.idle a
    intro present
    exact absent (by
      rw [Fleet.live, List.map_append]
      exact List.mem_append_left _ present)
  · rw [apart_iff_pairwise, List.pairwise_append]
    refine ⟨apart_iff_pairwise.mp R.apart, ?_, ?_⟩
    · rw [List.pairwise_map]
      exact (List.pairwise_map.mp distinct).imp fun differ _ _ => differ
    · intro x listed y spawned live _ same
      obtain ⟨d, taken, rfl⟩ := List.mem_map.mp spawned
      obtain ⟨t, task, own, _⟩ := (R.follows x listed).task live
      apply fresh d taken
      rw [show d.addr = t.addr from same.symm.trans own.symm]
      exact List.mem_map_of_mem task
  · intro x listed
    rcases List.mem_append.mp listed with listed | listed
    · apply (R.follows x listed).congr
      intro _ t task _ unended
      exact ⟨t, List.mem_append_left _ task, rfl, unended, rfl⟩
    · obtain ⟨d, taken, rfl⟩ := List.mem_map.mp listed
      exact ⟨rfl, Task.spawn d, List.mem_append_right _ (List.mem_map_of_mem taken), rfl, rfl, rfl⟩
  · intro t listed unended
    rcases List.mem_append.mp listed with listed | listed
    · obtain ⟨x, underway, live, own⟩ := R.running t listed unended
      exact ⟨x, List.mem_append_left _ underway, live, own⟩
    · obtain ⟨d, taken, rfl⟩ := List.mem_map.mp listed
      exact ⟨spawn net codec cfg fuel d, List.mem_append_right _ (List.mem_map_of_mem taken), rfl,
        rfl⟩

theorem step (R : s.Refines net codec cfg fuel f) (event : ObserverEvent H) :
    ∃ events, Refines net codec cfg fuel (s.step net codec cfg fuel event) (f.run events) := by
  have managed (event : ManagerEvent) (other : ∀ msg now, event ≠ .apply msg now)
      (dialless : (s.manager.next event).2 = []) (gossip : List (List Gossiped)) :
      ∃ events, Refines net codec cfg fuel
        { s with manager := (s.manager.next event).1, gossip } (f.run events) := by
    have R' := R.managed event other (by rw [dialless]; exact List.nodup_nil) (by simp [dialless])
      gossip
    rw [dialless, List.map_nil, List.append_nil] at R'
    exact ⟨[.manager event], R'⟩
  cases event with
  | tick now =>
      refine ⟨[.manager (.tick now)], R.managed (.tick now) (by intros; nofun) ?_ ?_ s.gossip⟩
      · exact Book.pick_nodup ..
      · intro d taken
        rw [R.manager] at taken
        exact R.tracked.fresh now taken
  | command cmd saved now => exact managed (.command cmd saved now) (by intros; nofun) rfl s.gossip
  | reorder entries => exact managed (.reorder entries) (by intros; nofun) rfl s.gossip
  | answer i answers => exact R.answer i answers
  | panics i => exact R.panics i
  | takeLifecycle now =>
      unfold Observer.step
      cases queue : s.lifecycle with
      | nil => exact ⟨[], R⟩
      | cons msg rest => exact R.taken queue now
  | takeGossip now =>
      unfold Observer.step
      cases s.gossip with
      | nil => exact ⟨[], R⟩
      | cons addrs rest => exact managed (.ingest now addrs) (by intros; nofun) rfl rest

/-! ## What is active -/

theorem active_iff (R : s.Refines net codec cfg fuel f) (a : PeerAddr) :
    (s.manager.book.active.lookup a).isSome ↔
      (∃ x ∈ s.attempts, x.live = true ∧ x.dial.addr = a) ∨
        ∃ outcome, .ended a outcome ∈ s.lifecycle := by
  rw [R.manager, R.tracked.active]
  constructor
  · intro present
    obtain ⟨t, listed, rfl⟩ := List.mem_map.mp present
    cases ended : t.ended with
    | none => exact .inl (R.running t listed ended)
    | some outcome =>
        have sent : .ended t.addr outcome ∈ s.pending t.addr := by
          rw [R.queued t listed]
          simp [Task.messages, ended]
        exact .inr ⟨outcome, List.mem_of_mem_filter sent⟩
  · rintro (⟨x, listed, live, rfl⟩ | ⟨outcome, sent⟩)
    · obtain ⟨t, task, own, _⟩ := (R.follows x listed).task live
      exact own ▸ List.mem_map_of_mem task
    · by_contra absent
      have waits : .ended a outcome ∈ s.pending a :=
        List.mem_filter.mpr ⟨sent, by simp [Lifecycle.addr]⟩
      rw [R.idle a absent] at waits
      cases waits

/-- The end of a live attempt is not reported yet. -/
theorem unreported (R : s.Refines net codec cfg fuel f) {x : Attempting H} (listed : x ∈ s.attempts)
    (live : x.live = true) (outcome : Outcome) : .ended x.dial.addr outcome ∉ s.lifecycle := by
  intro sent
  obtain ⟨t, task, own, unended⟩ := (R.follows x listed).task live
  have waits : .ended x.dial.addr outcome ∈ s.pending x.dial.addr :=
    List.mem_filter.mpr ⟨sent, by simp [Lifecycle.addr]⟩
  rw [← own, R.queued t task] at waits
  simp only [Task.messages, unended, Option.toList_none, List.map_nil, List.append_nil] at waits
  obtain ⟨report, _, never⟩ := List.mem_map.mp waits
  cases report <;> cases never

/-- No address has two ends on their way. -/
theorem ends_once (R : s.Refines net codec cfg fuel f) (a : PeerAddr) :
    (s.pending a).countP Lifecycle.isEnded ≤ 1 := by
  by_cases present : a ∈ f.live
  · obtain ⟨t, listed, rfl⟩ := List.mem_map.mp present
    have reports : (t.queue.map (Report.message t.addr)).countP Lifecycle.isEnded = 0 := by
      rw [List.countP_eq_zero]
      intro msg told
      obtain ⟨report, _, rfl⟩ := List.mem_map.mp told
      cases report <;> simp [Report.message, Lifecycle.isEnded]
    rw [R.queued t listed, Task.messages, List.countP_append, reports, Nat.zero_add]
    refine List.countP_le_length.trans ?_
    cases t.ended <;> simp
  · rw [R.idle a present]
    exact Nat.zero_le _

/-- What a tick dials has no live attempt, and no report about it is on its way. -/
theorem fresh (R : s.Refines net codec cfg fuel f) (now : UInt32) {d : Dial}
    (taken : d ∈ (s.manager.tick now).2) :
    (∀ x ∈ s.attempts, x.live = true → x.dial.addr ≠ d.addr) ∧ s.pending d.addr = [] := by
  rw [R.manager] at taken
  have absent := R.tracked.fresh now taken
  refine ⟨fun x listed live same => ?_, R.idle _ absent⟩
  obtain ⟨t, task, own, _⟩ := (R.follows x listed).task live
  exact absent (same ▸ own ▸ List.mem_map_of_mem task)

end Observer.Refines

theorem Observer.new_refines (config : Config) (seed : UInt64) (snapshot : HashMap PeerAddr Entry)
    (banlist : Banlist) :
    Refines net codec cfg fuel (.new config seed snapshot banlist)
      (.new config seed snapshot banlist) where
  manager := rfl
  tracked := Fleet.run_tracked config seed snapshot banlist []
  queued := nofun
  idle _ _ := rfl
  apart := nofun
  follows := nofun
  running := nofun

/-- In every run of the manager and its attempts, whatever these are answered and wherever they
    panic, they are the tasks of a fleet. No two live attempts share an address; the active
    addresses are those with a live attempt or an end on its way, never both and one end at
    most; and a tick dials none of them. -/
theorem Observer.run_refines_fleet (config : Config) (seed : UInt64)
    (snapshot : HashMap PeerAddr Entry) (banlist : Banlist) (events : List (ObserverEvent H)) :
    let s := (Observer.new config seed snapshot banlist).run net codec cfg fuel events
    (∃ fleet, s.Refines net codec cfg fuel ((Fleet.new config seed snapshot banlist).run fleet)) ∧
      Apart s.attempts ∧
      (∀ a, (s.manager.book.active.lookup a).isSome ↔
        (∃ x ∈ s.attempts, x.live = true ∧ x.dial.addr = a) ∨
          ∃ outcome, .ended a outcome ∈ s.lifecycle) ∧
      (∀ x ∈ s.attempts, x.live = true → ∀ outcome, .ended x.dial.addr outcome ∉ s.lifecycle) ∧
      (∀ a, (s.pending a).countP Lifecycle.isEnded ≤ 1) ∧
      ∀ now, ∀ d ∈ (s.manager.tick now).2,
        (∀ x ∈ s.attempts, x.live = true → x.dial.addr ≠ d.addr) ∧ s.pending d.addr = [] := by
  intro s
  obtain ⟨fleet, R⟩ := Run.runFrom_simulates (Observer.step net codec cfg fuel)
    (fun _ _ event R => R.step event) (Observer.new_refines net codec cfg fuel config seed snapshot
      banlist) events
  exact ⟨⟨fleet, R⟩, R.apart, R.active_iff, fun x listed live => R.unreported listed live,
    R.ends_once, fun now d taken => R.fresh now taken⟩

end Refines

end P2PObserver
