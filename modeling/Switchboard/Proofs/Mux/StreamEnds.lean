import Switchboard.Proofs.Mux.LaneRounds

namespace Switchboard.Mux

theorem perm_of_ofLane {β : Type} {messages more : List (Nat × β)}
    (same : ∀ i, ofLane i messages = ofLane i more) : messages.Perm more := by
  classical
  have count (m : Nat × β) (l : List (Nat × β)) : l.count m = (ofLane m.1 l).count m.2 := by
    induction l with
    | nil => rfl
    | cons first rest ih =>
      have one := ofLane_append m.1 [first] rest
      rw [List.singleton_append] at one
      rw [List.count_cons, one, List.count_append, ← ih, Nat.add_comm]
      by_cases lane : first.1 = m.1
      · simp [ofLane, lane, List.count_singleton, Prod.ext_iff]
      · simp [ofLane, lane, Prod.ext_iff]
  exact List.perm_iff_count.mpr fun m => by rw [count, count, same]

theorem FanIn.receive_of_taken {α : Type} {f : FanIn α} (taken : f.reader = .taken) (n : Nat) :
    f.receive (some n) =
      ({ f with merged := f.merged.drop n }, f.merged.take n,
        if n ≤ f.merged.length then .max else if f.isEnded then .closed else .empty) := by
  rw [receive, if_neg (by simp [taken])]

namespace Session

variable {s : Session} {kind : StreamKind} {rounds : List (List Command)}

/-- These are all the messages that were pushed, each under the name of its backend. Those of each
    backend come in the order in which its peer pushed them. -/
def Delivers (kind : StreamKind) (names : List String) (pushed : List (Nat × kind.Message))
    (messages : List (String × Json)) : Prop :=
  ∃ forwarded : List (Nat × kind.Message), (∀ i, ofLane i forwarded = ofLane i pushed) ∧
    messages.map (fun m => (some m.1, m.2)) =
      forwarded.map fun m => (names[m.1]?, (codec kind).write m.2)

theorem Delivers.perm {names : List String} {pushed : List (Nat × kind.Message)}
    {messages : List (String × Json)} (delivers : Delivers kind names pushed messages) :
    (messages.map fun m => (some m.1, m.2)).Perm
      (pushed.map fun m => (names[m.1]?, (codec kind).write m.2)) := by
  obtain ⟨forwarded, same, tagged⟩ := delivers
  rw [tagged]
  exact (perm_of_ofLane same).map _

theorem delivers_rounds (backends : List Backend) (settings : Settings)
    (goesOn : ∀ commands ∈ rounds, ∀ c ∈ commands, c.tearsDown = false)
    (held : (((ofBackends backends settings).rounds rounds).stream kind).reader ≠ .dropped) :
    Delivers kind (backends.map Backend.name)
      ((ofBackends backends settings).pushedBy kind rounds).flatten
      ((ofBackends backends settings).receivedBy kind rounds ++
        ((ofBackends backends settings).rounds rounds).buffered kind) := by
  obtain ⟨blocks, more, -, received, conserves⟩ :=
    conserves_rounds rfl goesOn held (conserves_ofBackends backends settings)
  refine ⟨blocks.flatten, conserves.ofLane_of_rested, ?_⟩
  have merged := congrArg (List.map fun m => (m.1, (codec kind).write m.2)) conserves.merged
  rw [names_rounds, List.nil_append, List.nil_append, List.map_map, List.map_map] at merged
  rw [received, buffered, ← List.map_append, List.map_map]
  exact merged

theorem Steady.rounds_of_held (steady : s.Steady kind [])
    (goesOn : ∀ commands ∈ rounds, ∀ c ∈ commands, c.tearsDown = false)
    (held : ((s.rounds rounds).stream kind).reader ≠ .dropped) :
    (s.rounds rounds).Steady kind [] ∧
      ∀ i l, s.lane? kind i = some l → l.isRunning = l.isOpen →
        ∃ l', (s.rounds rounds).lane? kind i = some l' ∧
          l'.isOpen = (l.isOpen && !closedIn kind i rounds) ∧ l'.isRunning = l'.isOpen := by
  induction rounds generalizing s with
  | nil => exact ⟨steady, fun i l here runs => ⟨l, here, by simp [closedIn], runs⟩⟩
  | cons commands rest ih =>
    have heldNow : ((s.round commands).stream kind).reader ≠ .dropped := fun dropped =>
      held (dropped_rounds dropped rest)
    obtain ⟨after, lanes⟩ := steady.round (goesOn commands (List.mem_cons_self ..))
    obtain ⟨last, later⟩ := ih after
      (fun commands member => goesOn commands (List.mem_cons_of_mem _ member)) held
    refine ⟨last, fun i l here runs => ?_⟩
    obtain ⟨l₁, here₁, open₁, -, running₁⟩ := lanes i l here
    have runs₁ : l₁.isRunning = l₁.isOpen := by
      rw [Bool.eq_iff_iff, running₁, open₁, runs]
      simp [heldNow]
    obtain ⟨l₂, here₂, open₂, runs₂⟩ := later i l₁ here₁ runs₁
    refine ⟨l₂, here₂, ?_, runs₂⟩
    rw [open₂, open₁, closedIn_cons, Bool.not_or, Bool.and_assoc]

theorem isEnded_iff (backends : List Backend) (settings : Settings)
    (goesOn : ∀ commands ∈ rounds, ∀ c ∈ commands, c.tearsDown = false)
    (held : (((ofBackends backends settings).rounds rounds).stream kind).reader ≠ .dropped) :
    (((ofBackends backends settings).rounds rounds).stream kind).isEnded = true ↔
      ∀ i < backends.length, closedIn kind i rounds = true := by
  obtain ⟨steady, new⟩ := steady_ofBackends kind backends settings
  obtain ⟨after, lanes⟩ := steady.rounds_of_held goesOn held
  have size : (((ofBackends backends settings).rounds rounds).stream kind).lanes.length =
      backends.length := by
    have names := congrArg List.length (names_rounds (ofBackends backends settings) rounds)
    rw [List.length_map, List.length_map] at names
    exact after.sized.trans names
  have running (i : Nat) (bound : i < backends.length) :
      ∃ l, (((ofBackends backends settings).rounds rounds).stream kind).lanes[i]? = some l ∧
        l.isRunning = !closedIn kind i rounds := by
    have inRange : i < ((ofBackends backends settings).stream kind).lanes.length := by
      rw [steady.sized]
      exact bound
    have here := List.getElem?_eq_getElem inRange
    obtain ⟨isOpen, runs, -⟩ := new i _ here
    obtain ⟨l, here', open', runs'⟩ := lanes i _ here (runs.trans isOpen.symm)
    exact ⟨l, here', by rw [runs', open', isOpen, Bool.true_and]⟩
  rw [FanIn.isEnded, List.all_eq_true]
  constructor
  · intro all i bound
    obtain ⟨l, here, runs⟩ := running i bound
    have ended := all l (List.mem_of_getElem? here)
    rwa [runs, Bool.not_not] at ended
  · intro closed l member
    obtain ⟨i, bound, rfl⟩ := List.getElem_of_mem member
    obtain ⟨l, here, runs⟩ := running i (size ▸ bound)
    rw [List.getElem?_eq_getElem bound, Option.some.injEq] at here
    rw [here, runs, closed i (size ▸ bound)]
    rfl

/-- The consumer asks the stream of a kind for a message. -/
def ask (kind : StreamKind) (s : Session) : Session × Result :=
  let (s, result, _) := s.act (.stream kind (.read (some 1)))
  (s, result)

theorem ask_of_taken (taken : (s.stream kind).reader = .taken) :
    (s.ask kind).2 = .items ((s.buffered kind).take 1)
      (if 1 ≤ (s.buffered kind).length then .max
        else if (s.stream kind).isEnded then .closed else .empty) ∧
    (s.ask kind).1.buffered kind = (s.buffered kind).drop 1 := by
  have acted : s.act (.stream kind (.read (some 1))) =
      s.perform (.stream kind (.read (some 1))) := by
    rw [act, if_neg (by simp [Command.backend?, StreamCommand.backend?]),
      if_neg (by simp [Command.needsLife])]
  rw [ask, acted, buffered, List.length_map, ← List.map_take, ← List.map_drop]
  cases kind with
  | notifications =>
    have given := FanIn.receive_of_taken (f := s.notifications) taken 1
    simp only [perform, FanIn.act, given]
    exact ⟨rfl, rfl⟩
  | requests =>
    have given := FanIn.receive_of_taken (f := s.requests) taken 1
    simp only [perform, FanIn.act, given]
    exact ⟨rfl, rfl⟩

variable {backends : List Backend} {settings : Settings}

theorem received_all_iff (goesOn : ∀ commands ∈ rounds, ∀ c ∈ commands, c.tearsDown = false)
    (held : (((ofBackends backends settings).rounds rounds).stream kind).reader ≠ .dropped) :
    (((ofBackends backends settings).receivedBy kind rounds).map fun m => (some m.1, m.2)).Perm
      (((ofBackends backends settings).pushedBy kind rounds).flatten.map fun m =>
        ((backends.map Backend.name)[m.1]?, (codec kind).write m.2)) ↔
    ((ofBackends backends settings).rounds rounds).buffered kind = [] := by
  have all := (delivers_rounds backends settings goesOn held).perm
  constructor
  · intro received
    have less := received.length_eq
    have total := all.length_eq
    simp only [List.length_map, List.length_append] at less total
    exact List.eq_nil_of_length_eq_zero (by omega)
  · intro none
    rwa [none, List.append_nil] at all

theorem rounds_append (s : Session) (rounds later : List (List Command)) :
    s.rounds (rounds ++ later) = (s.rounds rounds).rounds later := List.foldl_append

theorem pushedBy_append (s : Session) (rounds later : List (List Command)) :
    s.pushedBy kind (rounds ++ later) =
      s.pushedBy kind rounds ++ (s.rounds rounds).pushedBy kind later := by
  induction rounds generalizing s with
  | nil => rfl
  | cons commands rest ih => exact congrArg _ (ih (s.round commands))

theorem receivedBy_append (s : Session) (rounds later : List (List Command)) :
    s.receivedBy kind (rounds ++ later) =
      s.receivedBy kind rounds ++ (s.rounds rounds).receivedBy kind later := by
  induction rounds generalizing s with
  | nil => rfl
  | cons commands rest ih =>
    exact (congrArg _ (ih (s.round commands))).trans (List.append_assoc ..).symm

theorem buffered_of_ended (rounds later : List (List Command))
    (goesOn : ∀ commands ∈ rounds ++ later, ∀ c ∈ commands, c.tearsDown = false)
    (held : (((ofBackends backends settings).rounds (rounds ++ later)).stream kind).reader ≠
      .dropped)
    (closed : ∀ i < backends.length, closedIn kind i rounds = true)
    (none : ((ofBackends backends settings).rounds rounds).buffered kind = []) :
    ((ofBackends backends settings).rounds (rounds ++ later)).buffered kind = [] := by
  have goesOnNow := fun commands member => goesOn commands (List.mem_append_left later member)
  have goesOnLater := fun commands member => goesOn commands (List.mem_append_right rounds member)
  have heldNow :
      (((ofBackends backends settings).rounds rounds).stream kind).reader ≠ .dropped := by
    intro dropped
    rw [rounds_append] at held
    exact held (dropped_rounds dropped later)
  obtain ⟨steady, new⟩ := steady_ofBackends kind backends settings
  obtain ⟨after, lanes⟩ := steady.rounds_of_held goesOnNow heldNow
  have refused : ∀ i l, ((ofBackends backends settings).rounds rounds).lane? kind i = some l →
      l.accepts = false := by
    intro i l here
    have bound : i < backends.length := (length_rounds _ rounds).subst (after.bound here)
    obtain ⟨l₀, here₀⟩ := steady.lane (i := i) bound
    obtain ⟨isOpen, runs, -⟩ := new i l₀ here₀
    obtain ⟨l₁, here₁, shut, -⟩ := lanes i l₀ here₀ (runs.trans isOpen.symm)
    rw [here, Option.some.injEq] at here₁
    rw [Lane.accepts, here₁, shut, closed i bound, Bool.not_true, Bool.and_false, Bool.false_and]
  have unpushed := after.pushedBy_of_refused goesOnLater refused
  have before := (delivers_rounds backends settings goesOnNow heldNow).perm.length_eq
  have total := (delivers_rounds backends settings goesOn held).perm.length_eq
  rw [none, List.append_nil, List.length_map, List.length_map] at before
  rw [receivedBy_append, pushedBy_append, List.flatten_append, unpushed, List.append_nil,
    List.length_map, List.length_map, List.length_append, List.length_append] at total
  exact List.eq_nil_of_length_eq_zero (by omega)

/-- The consumer gets the end of a stream just when all peers have dropped their senders and all
    that they pushed has been received. Until then it gets the next message, or waits. -/
theorem end_of_stream (backends : List Backend) (settings : Settings)
    (rounds : List (List Command)) (kind : StreamKind)
    (goesOn : ∀ commands ∈ rounds, ∀ c ∈ commands, c.tearsDown = false)
    (taken : (((ofBackends backends settings).rounds rounds).stream kind).reader = .taken) :
    let start := ofBackends backends settings
    let now := start.rounds rounds
    let isOver := (∀ i < backends.length, closedIn kind i rounds = true) ∧
      ((start.receivedBy kind rounds).map fun m => (some m.1, m.2)).Perm
        ((start.pushedBy kind rounds).flatten.map fun m =>
          ((backends.map Backend.name)[m.1]?, (codec kind).write m.2))
    ((now.ask kind).2 = .items [] .closed ↔ isOver) ∧
    (∀ m rest, now.buffered kind = m :: rest →
      (now.ask kind).2 = .items [m] .max ∧ (now.ask kind).1.buffered kind = rest) ∧
    (now.buffered kind = [] → ¬isOver → (now.ask kind).2 = .items [] .empty) ∧
    (backends = [] → (now.ask kind).2 = .items [] .closed) ∧
    (∀ i < backends.length, closedIn kind i rounds = false →
      (now.ask kind).2 ≠ .items [] .closed) ∧
    ∀ later, (∀ commands ∈ later, ∀ c ∈ commands, c.tearsDown = false) →
      ((now.rounds later).stream kind).reader = .taken →
        isOver → ((now.rounds later).ask kind).2 = .items [] .closed := by
  intro start now isOver
  have held : (now.stream kind).reader ≠ .dropped := by rw [taken]; nofun
  have received := received_all_iff goesOn held
  have ended := isEnded_iff backends settings goesOn held
  obtain ⟨given, left⟩ := ask_of_taken taken
  -- the end is told when the forwarders have ended and nothing is left to read
  have whole : isOver ↔ (now.stream kind).isEnded = true ∧ now.buffered kind = [] :=
    and_congr ended.symm received
  have closes : (now.ask kind).2 = .items [] .closed ↔ isOver := by
    rw [whole, given]
    cases now.buffered kind with
    | nil => cases (now.stream kind).isEnded <;> simp
    | cons m rest => simp
  refine ⟨closes, fun m rest next => ?_, fun none unended => ?_, fun empty => ?_,
    fun i bound alive ends => ?_, fun later goesOnLater takenLater isOver => ?_⟩
  · rw [next] at given left
    exact ⟨given.trans (by simp), left⟩
  · rw [whole, not_and] at unended
    have runs : (now.stream kind).isEnded = false :=
      Bool.eq_false_iff.mpr fun ended => unended ended none
    rw [given, none, runs]
    rfl
  · -- without backends the stream has ended from the start
    have nobody : ∀ i < backends.length, closedIn kind i [] = true := fun i bound => by
      simp [empty] at bound
    have none := buffered_of_ended [] rounds goesOn held nobody (by cases kind <;> rfl)
    exact closes.mpr (whole.mpr ⟨ended.mpr fun i bound => by simp [empty] at bound, none⟩)
  · have dropped := (closes.mp ends).1 i bound
    rw [alive] at dropped
    cases dropped
  · have goesOnAll : ∀ commands ∈ rounds ++ later, ∀ c ∈ commands, c.tearsDown = false :=
      fun commands member => (List.mem_append.mp member).elim (goesOn commands)
        (goesOnLater commands)
    rw [← rounds_append] at takenLater ⊢
    have heldLater : ((start.rounds (rounds ++ later)).stream kind).reader ≠ .dropped := by
      rw [takenLater]
      nofun
    have none := buffered_of_ended rounds later goesOnAll heldLater isOver.1 (received.mp isOver.2)
    have still := (isEnded_iff backends settings goesOnAll heldLater).mpr fun i bound => by
      rw [closedIn_append, isOver.1 i bound, Bool.true_or]
    rw [(ask_of_taken takenLater).1, none, still]
    rfl

theorem end_of_stream_of_two_peers :
    let rounds : List (List Command) := [
      [.stream .notifications .take],
      [.stream .notifications (.push 0 [.obj [("method", .str "only")]]), .dropPeer 0],
      [.stream .notifications (.close 1)],
      [.stream .notifications (.read none)]]
    let later : List (List Command) := [[.stream .notifications (.push 1 [.null])]]
    let start := ofBackends [.ofName "a", .ofName "b"] {}
    ((start.rounds rounds).ask .notifications).2 = .items [] .closed ∧
      (((start.rounds rounds).rounds later).ask .notifications).2 = .items [] .closed := by
  intro rounds later start
  have taken : ((start.rounds rounds).stream .notifications).reader = .taken := by decide
  have none : (start.rounds rounds).buffered .notifications = [] := by decide
  have all : ((start.rounds rounds).stream .notifications).isEnded = true := by decide
  have ended : ((start.rounds rounds).ask .notifications).2 = .items [] .closed := by
    rw [(ask_of_taken taken).1, none, all]
    rfl
  obtain ⟨closes, -, -, -, -, lasts⟩ := end_of_stream [.ofName "a", .ofName "b"] {} rounds
    .notifications (by simp [rounds, Command.tearsDown]) taken
  exact ⟨ended, lasts later (by simp [later, Command.tearsDown]) (by decide) (closes.mp ended)⟩

end Session

end Switchboard.Mux
