import Switchboard.Proofs.Mux.Independence
import Switchboard.Proofs.Mux.Observers
import Switchboard.Proofs.Mux.StreamEnds

namespace Switchboard.Mux

/-- Whether a round brings nothing to a lane and leaves its source. -/
def passesBy (kind : StreamKind) (i : Nat) (commands : List Command) : Bool :=
  (Command.offered kind i commands).isEmpty && !commands.any (·.closes kind i)

/-- What a peer pushes of a kind in the first round in which it pushes any, if it does so before it
    drops its sender. -/
def firstBatch (kind : StreamKind) (i : Nat) : List (List Command) → List kind.Message
  | [] => []
  | commands :: rest =>
    if passesBy kind i commands then firstBatch kind i rest else Command.offered kind i commands

section

variable {kind : StreamKind} {i : Nat}

theorem passesBy_iff {commands : List Command} : passesBy kind i commands = true ↔
    Command.offered kind i commands = [] ∧ commands.any (·.closes kind i) = false := by
  rw [passesBy, Bool.and_eq_true, List.isEmpty_iff, Bool.not_eq_true']

theorem offered_append (commands more : List Command) :
    Command.offered kind i (commands ++ more) = Command.offered kind i commands ++
      if commands.any (·.closes kind i) then [] else Command.offered kind i more := by
  induction commands with
  | nil => rfl
  | cons c rest ih =>
    rw [List.cons_append, Command.offered, Command.offered, List.any_cons]
    cases c.closes kind i with
    | true => rfl
    | false => simp [ih]

theorem firstBatch_eq_take {rounds : List (List Command)}
    (few : ∀ commands ∈ rounds, (Command.offered kind i commands).length ≤ 1) :
    firstBatch kind i rounds = (Command.offered kind i rounds.flatten).take 1 := by
  induction rounds with
  | nil => rfl
  | cons commands rest ih =>
    have now := few commands (List.mem_cons_self ..)
    have later := ih fun commands member => few commands (List.mem_cons_of_mem _ member)
    rw [firstBatch, List.flatten_cons, offered_append, later, passesBy]
    rcases batch : Command.offered kind i commands with _ | ⟨m, _ | ⟨m', more⟩⟩
    · cases commands.any (·.closes kind i) <;> simp
    · simp
    · simp [batch] at now

end

namespace Session

variable {s : Session} {kind : StreamKind} {rounds : List (List Command)}

theorem Steady.rounds_of_dropped (steady : s.Steady kind [])
    (goesOn : ∀ commands ∈ rounds, ∀ c ∈ commands, c.tearsDown = false)
    (dropped : (s.stream kind).reader = .dropped) {i : Nat} {l : Lane kind.Message}
    (here : s.lane? kind i = some l) :
    (s.rounds rounds).Steady kind [] ∧
      ofLane i (s.pushedBy kind rounds).flatten =
        (if l.accepts then firstBatch kind i rounds else []) ∧
      ∃ l', (s.rounds rounds).lane? kind i = some l' ∧
        (l'.accepts = true ↔
          l.accepts = true ∧ closedIn kind i rounds = false ∧ firstBatch kind i rounds = []) := by
  induction rounds generalizing s l with
  | nil => exact ⟨steady, (ite_self _).symm, l, here, by simp [firstBatch]⟩
  | cons commands rest ih =>
    obtain ⟨after, lanes⟩ := steady.round (goesOn commands (List.mem_cons_self ..))
    obtain ⟨l₁, here₁, open₁, took, running₁⟩ := lanes i l here
    have droppedNow := dropped_round dropped commands
    obtain ⟨last, more, l', here', accepts'⟩ := ih after
      (fun commands member => goesOn commands (List.mem_cons_of_mem _ member)) droppedNow here₁
    have accepts₁ : l₁.accepts = (l.accepts && passesBy kind i commands) := by
      rw [Bool.eq_iff_iff, Bool.and_eq_true l.accepts, passesBy_iff, Lane.accepts, Bool.and_eq_true,
        running₁, open₁, took, Lane.accepts]
      cases l.isOpen <;> cases l.isRunning <;> cases commands.any (·.closes kind i) <;>
        simp [droppedNow]
    rw [accepts₁] at more accepts'
    refine ⟨last, ?_, l', here', accepts'.trans ?_⟩
    · rw [pushedBy, List.flatten_cons, ofLane_append, took, more, firstBatch]
      cases l.accepts with
      | false => rfl
      | true =>
        by_cases passes : passesBy kind i commands = true
        · simp [passes, (passesBy_iff.mp passes).1]
        · simp [passes]
    · rw [firstBatch, closedIn_cons]
      cases l.accepts with
      | false => simp
      | true =>
        by_cases passes : passesBy kind i commands = true
        · simp only [passes, (passesBy_iff.mp passes).2, Bool.and_self, Bool.false_or, if_true]
        · refine iff_of_false (by simp [passes]) fun all => passes (passesBy_iff.mpr ?_)
          rw [if_neg passes, Bool.or_eq_false_iff] at all
          exact ⟨all.2.2, all.2.1.1⟩

theorem reader_round_drop (taken : (s.stream kind).reader = .taken) :
    ((s.round [.stream kind .drop]).stream kind).reader = .dropped := by
  have acted : s.act (.stream kind .drop) = s.perform (.stream kind .drop) := by
    rw [act, if_neg (by simp [Command.backend?, StreamCommand.backend?]),
      if_neg (by simp [Command.needsLife])]
  rw [round, reader_settle, acts, List.foldl_cons, List.foldl_nil, acted]
  cases kind with
  | notifications =>
    have taken : s.notifications.reader = .taken := taken
    simp [perform, FanIn.act, FanIn.drop, taken, stream]
  | requests =>
    have taken : s.requests.reader = .taken := taken
    simp [perform, FanIn.act, FanIn.drop, taken, stream]

theorem calls_round_drop (settled : s.Settled) (kind : StreamKind) (rounds : List (List Command)) :
    callObserver.ofRounds s [[.stream kind .drop]] = [] ∧
      ((s.round [.stream kind .drop]).rounds rounds).CallsAlike (s.rounds rounds) ∧
      callObserver.ofRounds (s.round [.stream kind .drop]) rounds =
        callObserver.ofRounds s rounds := by
  obtain ⟨alike, unseen⟩ :=
    calls_unwind.rounds (s := s) (t := s) ⟨rfl, rfl⟩ settled [[.stream kind .drop]]
  obtain ⟨after, seen⟩ := calls_unwind.rounds alike settled rounds
  obtain ⟨after', seen'⟩ := calls_unwind.rounds (s := s) (t := s) ⟨rfl, rfl⟩ settled rounds
  exact ⟨unseen, ⟨after.1.trans after'.1.symm, after.2.trans after'.2.symm⟩, seen.trans seen'.symm⟩

theorem receivedBy_of_dropped (dropped : (s.stream kind).reader = .dropped)
    (rounds : List (List Command)) : s.receivedBy kind rounds = [] := by
  have once (commands : List Command) (s : Session)
      (dropped : (s.stream kind).reader = .dropped) : s.received kind commands = [] := by
    induction commands generalizing s with
    | nil => rfl
    | cons c rest ih =>
      have none : c.received kind (s.act c).2.1 = [] := by
        rw [received_act]
        cases c.onStream? kind with
        | none => rfl
        | some command =>
          cases command with
          | read max => simp [FanIn.gives, FanIn.receive, dropped]
          | _ => rfl
      rw [Session.received, none, List.nil_append]
      exact ih (s.act c).1 (dropped_act dropped c)
  induction rounds generalizing s with
  | nil => rfl
  | cons commands rest ih =>
    rw [receivedBy, once commands s dropped, List.nil_append]
    exact ih (dropped_round dropped commands)

/-- What becomes of a lane when the consumer has dropped its stream. The messages of one more batch
    are taken in, as the forwarder does not know. Until one comes it runs on; behind it nothing is
    taken in. -/
structure LosesBatch (kind : StreamKind) (i : Nat) (gone : Session) (after : List (List Command)) :
    Prop where
  lost : ofLane i (gone.pushedBy kind after).flatten = firstBatch kind i after
  alone : (∀ commands ∈ after, (Command.offered kind i commands).length ≤ 1) →
    ofLane i (gone.pushedBy kind after).flatten =
      (Command.offered kind i after.flatten).take 1
  unaware : firstBatch kind i after = [] → closedIn kind i after = false →
    ((gone.rounds after).stream kind).lanes[i]?.any Lane.isRunning = true ∧
      ∀ messages, ofLane i ((gone.rounds after).pushed kind [.stream kind (.push i messages)]) =
        (codec kind).readable messages
  refused : firstBatch kind i after ≠ [] → ∀ later,
    (∀ commands ∈ later, ∀ c ∈ commands, c.tearsDown = false) →
      ofLane i ((gone.rounds after).pushedBy kind later).flatten = []

theorem losesBatch {gone : Session} {after : List (List Command)} (steady : gone.Steady kind [])
    (dropped : (gone.stream kind).reader = .dropped)
    (goesOn : ∀ commands ∈ after, ∀ c ∈ commands, c.tearsDown = false) {i : Nat}
    {l : Lane kind.Message} (here : gone.lane? kind i = some l) (accepts : l.accepts = true) :
    LosesBatch kind i gone after := by
  obtain ⟨last, lost, l', here', accepts'⟩ := steady.rounds_of_dropped goesOn dropped here
  rw [accepts, if_pos rfl] at lost
  have droppedStill := dropped_rounds dropped after
  refine ⟨lost, fun few => lost.trans (firstBatch_eq_take few), fun none goes => ?_,
    fun some later goesOnLater => ?_⟩
  · have still := accepts'.mpr ⟨accepts, goes, none⟩
    refine ⟨?_, fun messages => ?_⟩
    · rw [show ((gone.rounds after).stream kind).lanes[i]? = Option.some l' from here']
      exact (Bool.and_eq_true_iff.mp still).2
    · have pushes : ∀ c ∈ [Command.stream kind (.push i messages)], c.tearsDown = false := by
        simp [Command.tearsDown]
      obtain ⟨-, lanes⟩ := last.round pushes
      obtain ⟨-, -, -, took, -⟩ := lanes i l' here'
      rw [took, still, if_pos rfl]
      simp [Command.offered, Command.closes, Command.offers, Command.onStream?,
        StreamCommand.closes, StreamCommand.offers]
  · obtain ⟨-, more, -⟩ := last.rounds_of_dropped goesOnLater droppedStill here'
    rw [more, if_neg fun accepts => some (accepts'.mp accepts).2.2]

theorem stream_rounds_congr {t : Session} (steady : s.Steady kind [])
    (steady' : t.Steady kind []) (same : s.stream kind = t.stream kind)
    (goesOn : ∀ commands ∈ rounds, ∀ c ∈ commands, c.tearsDown = false) :
    (s.rounds rounds).stream kind = (t.rounds rounds).stream kind ∧
      s.pushedBy kind rounds = t.pushedBy kind rounds ∧
      s.receivedBy kind rounds = t.receivedBy kind rounds := by
  have once (commands : List Command) (goesOn : ∀ c ∈ commands, c.tearsDown = false)
      {s t : Session} (steady : s.Steady kind (s.stream kind).woken)
      (steady' : t.Steady kind (t.stream kind).woken) (same : s.stream kind = t.stream kind) :
      (s.acts commands).stream kind = (t.acts commands).stream kind ∧
        s.pushed kind commands = t.pushed kind commands ∧
        s.received kind commands = t.received kind commands := by
    induction commands generalizing s t with
    | nil => exact ⟨same, rfl, rfl⟩
    | cons c rest ih =>
      have now := goesOn c (List.mem_cons_self ..)
      have next : (s.act c).1.stream kind = (t.act c).1.stream kind := by
        rw [stream_act steady.alive now steady.sized, stream_act steady'.alive now steady'.sized,
          same]
      obtain ⟨after, pushed, received⟩ := ih
        (fun c member => goesOn c (List.mem_cons_of_mem _ member)) (steady.act now)
        (steady'.act now) next
      refine ⟨after, ?_, ?_⟩
      · rw [Session.pushed, Session.pushed, pushed, same]
      · rw [Session.received, Session.received, received, received_act, received_act, same]
  induction rounds generalizing s t with
  | nil => exact ⟨same, rfl, rfl⟩
  | cons commands rest ih =>
    have now := goesOn commands (List.mem_cons_self ..)
    obtain ⟨acted, pushed, received⟩ := once commands now (steady.early _) (steady'.early _) same
    have next : (s.round commands).stream kind = (t.round commands).stream kind := by
      rw [round, round, stream_settle, stream_settle, acted]
    obtain ⟨after, pushedLater, receivedLater⟩ := ih (steady.round now).1 (steady'.round now).1 next
      fun commands member => goesOn commands (List.mem_cons_of_mem _ member)
    refine ⟨after, ?_, ?_⟩
    · rw [pushedBy, pushedBy, pushed, pushedLater]
    · rw [receivedBy, receivedBy, received, receivedLater]

theorem stream_round_drop (settled : s.Settled) (steady : s.Steady kind []) {dropped : StreamKind}
    (differs : kind ≠ dropped) :
    (s.round [.stream dropped .drop]).stream kind = s.stream kind := by
  have none : Command.onStream? kind (.stream dropped .drop) = none := if_neg (Ne.symm differs)
  have quiet : (s.stream kind).woken = [] := by
    cases kind with
    | notifications => exact settled.notifications
    | requests => exact settled.requests
  rw [round, stream_settle, acts, List.foldl_cons, List.foldl_nil,
    stream_act steady.alive rfl steady.sized, none, Option.elim, FanIn.settle_of_quiet quiet]

/-- When the consumer drops a merged stream, in a round of its own, it gets nothing from it any
    more, and each lane whose source is open loses one batch. The stream of the other kind and the
    calls go on as they would have done. -/
theorem dropped_stream (backends : List Backend) (settings : Settings)
    (before after : List (List Command)) (kind : StreamKind)
    (goesOn : ∀ commands ∈ before ++ after, ∀ c ∈ commands, c.tearsDown = false)
    (taken : (((ofBackends backends settings).rounds before).stream kind).reader = .taken) :
    let start := ofBackends backends settings
    let held := start.rounds before
    let gone := held.round [.stream kind .drop]
    let whole := before ++ [.stream kind .drop] :: after
    (gone.receivedBy kind after = [] ∧
      ∀ i < backends.length, closedIn kind i before = false → LosesBatch kind i gone after) ∧
    (∀ other, other ≠ kind →
      (gone.rounds after).stream other = (held.rounds after).stream other ∧
      gone.pushedBy other after = held.pushedBy other after ∧
      gone.receivedBy other after = held.receivedBy other after ∧
      (((start.rounds whole).stream other).reader ≠ .dropped →
        Delivers other (backends.map Backend.name) (start.pushedBy other whole).flatten
          (start.receivedBy other whole ++ (start.rounds whole).buffered other))) ∧
    callObserver.ofRounds held [[.stream kind .drop]] = [] ∧
    callObserver.ofRounds gone after = callObserver.ofRounds held after ∧
    (gone.rounds after).calls = (held.rounds after).calls := by
  intro start held gone whole
  have goesOnBefore := fun commands member => goesOn commands (List.mem_append_left after member)
  have goesOnAfter := fun commands member => goesOn commands (List.mem_append_right before member)
  have settled : held.Settled := settled_rounds (settled_ofBackends backends settings) before
  have dropped := reader_round_drop taken
  have intact : (held.stream kind).reader ≠ .dropped := by
    rw [taken]
    nofun
  have drops : ∀ c ∈ [Command.stream kind .drop], c.tearsDown = false := by
    simp [Command.tearsDown]
  obtain ⟨unseen, alike, seen⟩ := calls_round_drop settled kind after
  refine ⟨⟨receivedBy_of_dropped dropped after, fun i bound sourced => ?_⟩, fun other differs => ?_,
    unseen, seen, alike.1⟩
  · obtain ⟨steady, new⟩ := steady_ofBackends kind backends settings
    obtain ⟨l₀, here₀⟩ := steady.lane (i := i) bound
    obtain ⟨isOpen₀, runs₀, -⟩ := new i l₀ here₀
    -- as long as the stream was held the forwarder ran, and it runs on until something is pushed
    obtain ⟨steadyHeld, lanes⟩ := steady.rounds_of_held goesOnBefore intact
    obtain ⟨l, here, isOpen, runs⟩ := lanes i l₀ here₀ (runs₀.trans isOpen₀.symm)
    rw [isOpen₀, sourced] at isOpen
    obtain ⟨steadyGone, lanes⟩ := steadyHeld.round drops
    obtain ⟨l', here', isOpen', took', runs'⟩ := lanes i l here
    refine losesBatch steadyGone dropped goesOnAfter here' ?_
    rw [Lane.accepts, Bool.and_eq_true, isOpen', runs', took', runs, isOpen]
    simp [Command.offered, Command.closes, Command.offers, Command.onStream?,
      StreamCommand.closes, StreamCommand.offers]
  · have steady : held.Steady other [] :=
      (steady_ofBackends other backends settings).1.rounds goesOnBefore
    obtain ⟨same, pushed, received⟩ := stream_rounds_congr (steady.round drops).1 steady
      (stream_round_drop settled steady differs) goesOnAfter
    refine ⟨same, pushed, received, fun heldStill => ?_⟩
    refine delivers_rounds backends settings (fun commands member => ?_) heldStill
    rcases List.mem_append.mp member with early | later
    · exact goesOnBefore commands early
    · rcases List.mem_cons.mp later with rfl | later
      · exact drops
      · exact goesOnAfter commands later

/-- Messages that are pushed one behind the other, before the forwarder runs, are all accepted, and
    none of them is ever received. -/
theorem dropped_stream_accepts_two :
    let note (method : String) : Json := .obj [("method", .str method)]
    let held := (ofBackends [.ofName "a"] {}).round [.stream .notifications .take]
    let gone := held.round [.stream .notifications .drop]
    let push : Command := .stream .notifications (.push 0 [note "first", note "second"])
    (gone.act push).2.1 = .sent [true, true] ∧
      gone.pushed .notifications [push] = [(0, ⟨"first", .null⟩), (0, ⟨"second", .null⟩)] ∧
      ((gone.round [push]).act (.stream .notifications (.read none))).2.1 = .items [] .notTaken ∧
      ((gone.round [push]).act push).2.1 = .sent [false, false] := by
  exact ⟨rfl, rfl, rfl, rfl⟩

theorem dropped_stream_of_two_peers :
    let note (method : String) : Json := .obj [("method", .str method)]
    let before : List (List Command) := [
      [.stream .notifications .take, .stream .requests .take],
      [.stream .notifications (.push 0 [note "held"])]]
    let after : List (List Command) := [
      [.stream .notifications (.push 1 [note "lost"])],
      [.stream .notifications (.push 1 [note "refused"])]]
    let start := ofBackends [.ofName "a", .ofName "b"] {}
    let gone := (start.rounds before).round [.stream .notifications .drop]
    LosesBatch .notifications 0 gone after ∧ LosesBatch .notifications 1 gone after ∧
      firstBatch .notifications 0 after = [] ∧
      firstBatch .notifications 1 after = [⟨"lost", .null⟩] := by
  intro note before after start gone
  obtain ⟨⟨-, loses⟩, -⟩ := dropped_stream [.ofName "a", .ofName "b"] {} before after
    .notifications (by simp [before, after, Command.tearsDown]) (by decide)
  exact ⟨loses 0 (by decide) rfl, loses 1 (by decide) rfl, rfl, by rfl⟩

end Session

end Switchboard.Mux
