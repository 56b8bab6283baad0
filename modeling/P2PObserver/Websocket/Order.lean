import P2PObserver.Websocket.Effects

/-! # The order of status updates

A handler answers a subscription from the cache with no lock held, so a newer update can be
broadcast between its read and its send. Without that every queue gets the snapshots of a
network in the order they were obtained.
-/

namespace P2PObserver

namespace Websocket

/-- A run with the history of its status updates. -/
abbrev Watched (A H V : Type) := Run.Logged (Server A H V) (Report V)

namespace Watched

variable {A H V : Type} [DecidableEq A]

def new : Watched A H V := ⟨.new, []⟩

def step (w : Watched A H V) (e : ServerStep A H V) : Watched A H V :=
  Run.Logged.step Server.step Server.report w e

/-- The snapshots of a network put in the queue of a connection, oldest first. -/
def puts (conn : Nat) (network : String) (history : List (Report V)) : List (Snapshot V) :=
  history.filterMap fun
    | .put conn' network' snapshot =>
        if conn' = conn ∧ network' = network then some snapshot else none
    | _ => none

/-- Every queue gets the snapshots of a network in the order they were obtained. -/
def Ordered (w : Watched A H V) : Prop :=
  ∀ conn network, (puts conn network w.history).Pairwise (·.poll ≤ ·.poll)

/-- Since the handler last read the cache, a poll has replaced the network's update there and
    its broadcast has put the new one in the connection's queue. -/
def Overtaken (history : List (Report V)) (conn : Nat) (network : String) : Prop :=
  ∃ before after, history = before ++ .read conn :: after ∧ .read conn ∉ after ∧
    ∃ poll snapshot, [.cached network poll, .put conn network snapshot].Sublist after

/-- No handler sends an update it read before a newer one overtook it. -/
def InOrder (w : Watched A H V) (e : ServerStep A H V) : Prop :=
  ∀ conn network snapshot, e = .advance conn →
    .put conn network snapshot ∈ w.state.report e → ¬ Overtaken w.history conn network

/-! ## What a handler has still to send -/

omit [DecidableEq A] in
theorem mem_puts {conn : Nat} {network : String} {history : List (Report V)}
    {snapshot : Snapshot V} :
    snapshot ∈ puts conn network history ↔ .put conn network snapshot ∈ history := by
  simp only [puts, List.mem_filterMap]
  constructor
  · rintro ⟨report, inside, same⟩
    cases report with
    | put conn' network' snapshot' =>
        simp only [Option.ite_none_right_eq_some, Option.some.injEq] at same
        obtain ⟨⟨rfl, rfl⟩, rfl⟩ := same
        exact inside
    | cached network' poll => cases same
    | read conn' => cases same
  · intro inside
    exact ⟨_, inside, by simp⟩

/-- An update read from the cache and not sent yet, with the history before and after the
    read. -/
structure Waits (latest : HashMap String (Snapshot V)) (before after : List (Report V))
    (conn : Nat) (network : String) (snapshot : Snapshot V) : Prop where
  older : ∀ put, .put conn network put ∈ before → put.poll ≤ snapshot.poll
  since : ∀ front put back, after = front ++ .put conn network put :: back →
    (snapshot.poll < put.poll ↔ ∃ poll, .cached network poll ∈ front)
  replaced : ∀ poll, .cached network poll ∈ after →
    ∃ current, latest.lookup network = some current ∧ snapshot.poll < current.poll
  current : (∀ poll, .cached network poll ∉ after) → latest.lookup network = some snapshot

variable {latest : HashMap String (Snapshot V)} {before after : List (Report V)} {conn : Nat}
  {network : String} {snapshot : Snapshot V}

theorem Waits.put (waits : Waits latest before after conn network snapshot) {conn' : Nat}
    {network' : String} {put : Snapshot V}
    (newest : conn' = conn → network' = network → latest.lookup network = some put) :
    Waits latest before (after ++ [.put conn' network' put]) conn network snapshot where
  older := waits.older
  since := by
    intro front put' back split
    rcases Run.concat_eq_split split with ⟨rfl, same, rfl⟩ | ⟨rest, rfl, earlier⟩
    · cases same
      have found := newest rfl rfl
      constructor
      · intro larger
        by_contra none
        rw [waits.current fun poll inside => none ⟨poll, inside⟩] at found
        cases found
        exact lt_irrefl _ larger
      · rintro ⟨poll, inside⟩
        obtain ⟨current, found', larger⟩ := waits.replaced poll inside
        rw [found] at found'
        cases found'
        exact larger
    · exact waits.since front put' rest earlier
  replaced := by
    intro poll inside
    rcases List.mem_append.mp inside with earlier | here
    · exact waits.replaced poll earlier
    · simp at here
  current := by
    intro no_poll
    exact waits.current fun poll inside => no_poll poll (List.mem_append_left _ inside)

theorem Waits.read (waits : Waits latest before after conn network snapshot) (conn' : Nat) :
    Waits latest before (after ++ [.read conn']) conn network snapshot where
  older := waits.older
  since := by
    intro front put' back split
    rcases Run.concat_eq_split split with ⟨-, same, -⟩ | ⟨rest, rfl, earlier⟩
    · cases same
    · exact waits.since front put' rest earlier
  replaced := by
    intro poll inside
    rcases List.mem_append.mp inside with earlier | here
    · exact waits.replaced poll earlier
    · simp at here
  current := by
    intro no_poll
    exact waits.current fun poll inside => no_poll poll (List.mem_append_left _ inside)

/-- What is cached is never older than what waits. -/
theorem Waits.le_current (waits : Waits latest before after conn network snapshot) :
    ∃ current, latest.lookup network = some current ∧ snapshot.poll ≤ current.poll := by
  by_cases replaced : ∃ poll, .cached network poll ∈ after
  · obtain ⟨poll, inside⟩ := replaced
    obtain ⟨current, found, larger⟩ := waits.replaced poll inside
    exact ⟨current, found, larger.le⟩
  · exact ⟨snapshot, waits.current fun poll inside => replaced ⟨poll, inside⟩, le_rfl⟩

theorem Waits.cache (waits : Waits latest before after conn network snapshot)
    {network' : String} {fresh : Snapshot V}
    (newer : ∀ other current, latest.lookup other = some current → current.poll < fresh.poll) :
    Waits (latest.insert network' fresh) before (after ++ [.cached network' fresh.poll]) conn
      network snapshot where
  older := waits.older
  since := by
    intro front put' back split
    rcases Run.concat_eq_split split with ⟨-, same, -⟩ | ⟨rest, rfl, earlier⟩
    · cases same
    · exact waits.since front put' rest earlier
  replaced := by
    intro poll inside
    by_cases same : network = network'
    · subst same
      obtain ⟨current, found, le⟩ := waits.le_current
      exact ⟨fresh, AList.lookup_insert _, le.trans_lt (newer _ _ found)⟩
    · rw [AList.lookup_insert_ne same]
      rcases List.mem_append.mp inside with earlier | here
      · exact waits.replaced poll earlier
      · simp [same] at here
  current := by
    intro no_poll
    have other : network ≠ network' := by
      rintro rfl
      exact no_poll fresh.poll (by simp)
    rw [AList.lookup_insert_ne other]
    exact waits.current fun poll inside => no_poll poll (List.mem_append_left _ inside)

/-! ## What every step keeps -/

def network? : Outgoing H V → Option String
  | .status network _ => some network
  | _ => none

/-- The updates a handler has still to send are of different networks, and each is
    accounted for. -/
def Answers (latest : HashMap String (Snapshot V)) (history : List (Report V)) (conn : Nat)
    (texts : List (Outgoing H V)) : Prop :=
  ∃ before after, history = before ++ .read conn :: after ∧ .read conn ∉ after ∧
    (texts.filterMap network?).Nodup ∧
      ∀ network snapshot, .status network snapshot ∈ texts →
        Waits latest before after conn network snapshot

structure Sound (w : Watched A H V) : Prop where
  fresh : w.state.Fresh
  putOld : ∀ conn network snapshot, .put conn network snapshot ∈ w.history →
    ∃ current, w.state.latestStatus.lookup network = some current ∧
      snapshot.poll ≤ current.poll
  answers : ∀ conn addr texts, w.state.handlers conn = .sending addr texts →
    Answers w.state.latestStatus w.history conn texts

omit [DecidableEq A] in
theorem sound_new : (new : Watched A H V).Sound where
  fresh := Server.fresh_new
  putOld := by simp [new]
  answers := by simp [new, Server.new]

theorem Answers.distinct {history : List (Report V)} {texts : List (Outgoing H V)}
    (answers : Answers latest history conn texts) : (texts.filterMap network?).Nodup := by
  obtain ⟨before, after, split, last, distinct, waits⟩ := answers
  exact distinct

theorem Answers.suffix {history : List (Report V)} {more texts : List (Outgoing H V)}
    (answers : Answers latest history conn (more ++ texts)) :
    Answers latest history conn texts := by
  obtain ⟨before, after, split, last, distinct, waits⟩ := answers
  rw [List.filterMap_append] at distinct
  refine ⟨before, after, split, last, (List.nodup_append.mp distinct).2.1, ?_⟩
  intro network snapshot inside
  exact waits network snapshot (List.mem_append_right _ inside)

/-- A report that is no read of this handler leaves it accounted for, as it leaves each
    update. -/
theorem Answers.append {latest' : HashMap String (Snapshot V)} {history : List (Report V)}
    {texts : List (Outgoing H V)} {report : Report V}
    (answers : Answers latest history conn texts) (other : report ≠ .read conn)
    (keeps : ∀ before after network snapshot, .status network snapshot ∈ texts →
      Waits latest before after conn network snapshot →
      Waits latest' before (after ++ [report]) conn network snapshot) :
    Answers latest' (history ++ [report]) conn texts := by
  obtain ⟨before, after, rfl, last, distinct, waits⟩ := answers
  refine ⟨before, after ++ [report], by simp, ?_, distinct, ?_⟩
  · simp only [List.mem_append, List.mem_singleton, not_or]
    exact ⟨last, fun same => other same.symm⟩
  · intro network snapshot inside
    exact keeps before after network snapshot inside (waits network snapshot inside)

omit [DecidableEq A] in
theorem cached_distinct (s : Server A H V) : (s.cached.filterMap network?).Nodup := by
  have keys : s.cached.filterMap network? =
      (HashMap.sortedBy Sigma.fst s.latestStatus).map Sigma.fst := by
    rw [Server.cached, List.filterMap_map, ← List.filterMap_eq_map]
    rfl
  have perm := (List.perm_insertionSort (fun e f => Sigma.fst e ≤ Sigma.fst f)
    s.latestStatus.entries).map Sigma.fst
  rw [keys]
  exact perm.nodup_iff.mpr s.latestStatus.nodupKeys

theorem Sound.step {w : Watched A H V} (sound : w.Sound) (e : ServerStep A H V) :
    (w.step e).Sound := by
  have effect := Server.effect sound.fresh e
  refine ⟨sound.fresh.step e, ?_, ?_⟩
  all_goals
    simp only [Watched.step, Run.Logged.step]
    generalize w.state.report e = reported at effect
    generalize w.state.step e = s' at effect
  · intro conn network snapshot inside
    cases effect with
    | quiet latest handlers =>
        rw [latest]
        exact sound.putOld conn network snapshot (by simpa using inside)
    | read conn' addr latest answering handlers =>
        rw [latest]
        exact sound.putOld conn network snapshot (by simpa using inside)
    | cache network' fresh poller latest handlers =>
        obtain ⟨current, found, le⟩ :=
          sound.putOld conn network snapshot (by simpa using inside)
        rw [latest]
        by_cases same : network = network'
        · subst same
          have newer := (sound.fresh.caching _ _ poller).2 _ _ found
          exact ⟨fresh, AList.lookup_insert _, le.trans newer.le⟩
        · exact ⟨current, by rwa [AList.lookup_insert_ne same], le⟩
    | broadcast conn' network' put latest handlers current notOwn =>
        rw [latest]
        rcases List.mem_append.mp inside with earlier | here
        · exact sound.putOld conn network snapshot earlier
        · cases List.mem_singleton.mp here
          exact ⟨snapshot, current, le_rfl⟩
    | answer conn' addr network' put rest latest sending handlers own =>
        rw [latest]
        rcases List.mem_append.mp inside with earlier | here
        · exact sound.putOld conn network snapshot earlier
        · cases List.mem_singleton.mp here
          obtain ⟨before, after, -, -, -, waits⟩ := sound.answers conn addr _ sending
          exact (waits network snapshot (by simp)).le_current
  · intro conn addr texts phase
    cases effect with
    | quiet latest handlers =>
        obtain ⟨more, earlier⟩ := handlers conn addr texts phase
        rw [latest, List.append_nil]
        exact (sound.answers conn addr _ earlier).suffix
    | read conn' addr' latest answering handlers =>
        rw [latest]
        simp only [handlers] at phase
        split at phase
        · rename_i same
          cases phase
          subst same
          refine ⟨w.history, [], rfl, by simp, cached_distinct _, ?_⟩
          intro network snapshot inside
          obtain ⟨network', snapshot', same, found⟩ := Server.cached_statuses inside
          cases same
          refine ⟨?_, by simp, by simp, fun _ => found⟩
          intro put earlier
          obtain ⟨current, found', le⟩ := sound.putOld conn network put earlier
          rw [found] at found'
          cases found'
          exact le
        · rename_i different
          refine (sound.answers conn addr texts phase).append ?_ ?_
          · intro same
            cases same
            exact different rfl
          · intro before after network snapshot _ waits
            exact waits.read conn'
    | cache network' fresh poller latest handlers =>
        rw [latest]
        refine (sound.answers conn addr texts (handlers ▸ phase)).append (by simp) ?_
        intro before after network snapshot _ waits
        exact waits.cache (sound.fresh.caching _ _ poller).2
    | broadcast conn' network' put latest handlers current notOwn =>
        rw [latest]
        refine (sound.answers conn addr texts (handlers ▸ phase)).append (by simp) ?_
        intro before after network snapshot _ waits
        exact waits.put fun _ same => same ▸ current
    | answer conn' addr' network' put rest latest sending handlers own =>
        rw [latest]
        simp only [handlers] at phase
        split at phase
        · rename_i same
          cases phase
          subst same
          have both : Answers w.state.latestStatus w.history conn
              ([.status network' put] ++ texts) := sound.answers conn addr _ sending
          have distinct : (network' :: texts.filterMap network?).Nodup := both.distinct
          refine both.suffix.append ?_ ?_
          · simp
          intro before after network snapshot inside waits
          refine waits.put fun _ same => ?_
          subst same
          have again : network' ∈ texts.filterMap network? :=
            List.mem_filterMap.mpr ⟨_, inside, rfl⟩
          exact absurd again (List.nodup_cons.mp distinct).1
        · rename_i different
          refine (sound.answers conn addr texts phase).append (by simp) ?_
          intro before after network snapshot _ waits
          exact waits.put fun same => absurd same.symm different

/-! ## Runs -/

theorem puts_append (history : List (Report V)) (report : Report V) :
    puts conn network (history ++ [report]) =
      puts conn network history ++ puts conn network [report] :=
  List.filterMap_append ..

theorem puts_put {conn' : Nat} {network' : String} :
    puts conn' network' [.put conn network snapshot] =
      if conn = conn' ∧ network = network' then [snapshot] else [] := by
  simp only [puts, List.filterMap_cons, List.filterMap_nil]
  split <;> simp_all

/-- One more snapshot keeps a queue in order exactly when it is no older than the others. -/
theorem ordered_put {history : List (Report V)}
    (ordered : ∀ conn network, (puts conn network history).Pairwise (·.poll ≤ ·.poll)) :
    (∀ conn' network', (puts conn' network' (history ++ [.put conn network snapshot])).Pairwise
        (·.poll ≤ ·.poll)) ↔
      ∀ put, .put conn network put ∈ history → put.poll ≤ snapshot.poll := by
  simp only [puts_append, List.pairwise_append, puts_put]
  constructor
  · intro holds put inside
    have above := (holds conn network).2.2 put (mem_puts.mpr inside)
    simp only [and_self, if_true, List.mem_singleton, forall_eq] at above
    exact above
  · intro older conn' network'
    refine ⟨ordered conn' network', ?_, ?_⟩
    · split <;> simp
    · intro put inside put' here
      split at here
      · rename_i same
        obtain ⟨rfl, rfl⟩ := same
        cases List.mem_singleton.mp here
        exact older put (mem_puts.mp inside)
      · cases here

omit [DecidableEq A] in
/-- What waits is older than something in its queue exactly when it has been overtaken. -/
theorem Sound.overtaken_iff {w : Watched A H V} (sound : w.Sound) {addr : A}
    {rest : List (Outgoing H V)}
    (sending : w.state.handlers conn = .sending addr (.status network snapshot :: rest)) :
    (∀ put, .put conn network put ∈ w.history → put.poll ≤ snapshot.poll) ↔
      ¬ Overtaken w.history conn network := by
  obtain ⟨before, after, split, last, -, all⟩ := sound.answers conn addr _ sending
  have waits := all network snapshot (by simp)
  constructor
  · rintro older ⟨before', after', split', last', poll, put, inside⟩
    obtain ⟨rfl, rfl⟩ := Run.last_split_unique (split'.symm.trans split) last' last
    obtain ⟨front, back, rfl, cached, inside⟩ := List.cons_sublist_iff.mp inside
    obtain ⟨upTo, tail, rfl⟩ := List.mem_iff_append.mp (List.singleton_sublist.mp inside)
    have larger := (waits.since (front ++ upTo) put tail (by simp)).mpr ⟨poll, by simp [cached]⟩
    have smaller := older put (by simp [split])
    omega
  · intro inOrder put inside
    rw [split, List.mem_append, List.mem_cons] at inside
    rcases inside with earlier | same | later
    · exact waits.older put earlier
    · cases same
    · by_contra larger
      obtain ⟨front, back, rfl⟩ := List.mem_iff_append.mp later
      obtain ⟨poll, cached⟩ := (waits.since front put back rfl).mp (by omega)
      refine inOrder ⟨before, _, split, last, poll, put, ?_⟩
      exact (List.singleton_sublist.mpr cached).append
        (List.singleton_sublist.mpr (List.mem_cons_self ..))

theorem Sound.ordered_step_iff {w : Watched A H V} (sound : w.Sound) (ordered : w.Ordered)
    (e : ServerStep A H V) : (w.step e).Ordered ↔ w.InOrder e := by
  have effect := Server.effect sound.fresh e
  simp only [Ordered, InOrder, Watched.step, Run.Logged.step]
  generalize w.state.report e = reported at effect
  generalize w.state.step e = s' at effect
  cases effect with
  | quiet latest handlers =>
      rw [List.append_nil]
      exact iff_of_true ordered (by simp)
  | cache network fresh poller latest handlers =>
      refine iff_of_true (fun conn network' => ?_) (by simp)
      rw [puts_append]
      simp only [puts, List.filterMap_cons, List.filterMap_nil, List.append_nil]
      exact ordered conn network'
  | read conn' addr latest answering handlers =>
      refine iff_of_true (fun conn network' => ?_) (by simp)
      rw [puts_append]
      simp only [puts, List.filterMap_cons, List.filterMap_nil, List.append_nil]
      exact ordered conn network'
  | broadcast conn network snapshot latest handlers current notOwn =>
      rw [ordered_put ordered]
      refine iff_of_true ?_ fun conn' _ _ own => absurd own (notOwn conn')
      intro put inside
      obtain ⟨newest, found, le⟩ := sound.putOld conn network put inside
      rw [current] at found
      cases found
      exact le
  | answer conn addr network snapshot rest latest sending handlers own =>
      rw [ordered_put ordered, sound.overtaken_iff sending]
      constructor
      · intro inOrder conn' network' snapshot' same here
        cases List.mem_singleton.mp here
        exact inOrder
      · intro inOrder
        exact inOrder conn network snapshot own (by simp)

/-- Every queue gets its snapshots in order, all along a run, exactly when no handler sends
    an update that has been overtaken. -/
theorem run_status_ordered_iff (steps : List (ServerStep A H V)) :
    (∀ before, before <+: steps → (Run.runFrom step new before).Ordered) ↔
      Run.Along step InOrder new steps := by
  refine Run.prefixes_iff_along_of step (P := Ordered) ?_ steps ?_
  · intro conn network
    exact List.Pairwise.nil
  · intro before e _ ordered
    rw [Run.runFrom_append]
    have sound : (Run.runFrom step new before).Sound :=
      Run.runFrom_preserves step (fun _ e sound => sound.step e) sound_new before
    exact sound.ordered_step_iff ordered e

end Watched

/-! ## An overtaken answer

A client subscribes with one snapshot in the cache. Its handler reads it, the next poll
replaces it and broadcasts the new one, and then the handler sends what it read.
-/

def subscribed : ClientSubscriptions := { ClientSubscriptions.default with connectionStatus := true }

def poll (reply : Nat) : List (ServerStep Nat Nat Nat) :=
  [.poll "main" (some reply), .poller, .poller, .pollerVisit 7, .poller]

def subscribe : List (ServerStep Nat Nat Nat) :=
  [.receive 0 (.subscribe subscribed), .advance 0, .advance 0]

def staleAnswer : List (ServerStep Nat Nat Nat) :=
  .accept 0 7 :: .advance 0 :: .advance 0 :: (poll 10 ++ (subscribe ++ (poll 20 ++ [.advance 0])))

theorem stale_answer :
    ¬ ∀ steps : List (ServerStep Nat Nat Nat), (Run.runFrom Watched.step .new steps).Ordered := by
  intro ordered
  have order := ordered staleAnswer 0 "main"
  have queue : Watched.puts 0 "main" (Run.runFrom Watched.step .new staleAnswer).history =
      [⟨2, 20⟩, ⟨1, 10⟩] := by decide +kernel
  rw [queue] at order
  exact absurd order (by decide)

end Websocket

end P2PObserver
