import Switchboard.Proofs.Mux.Lanes

namespace Switchboard.Mux

namespace Command

variable (kind : StreamKind) (index : Nat)

def closes (c : Command) : Bool := (c.onStream? kind).any (·.closes index)

/-- The messages of a kind that a command brings to a lane, as long as that takes any. -/
def offers (c : Command) : List kind.Message :=
  (c.onStream? kind).elim [] (·.offers (Session.codec kind) index)

def onLane (c : Command) : Lane kind.Message → Lane kind.Message :=
  (c.onStream? kind).elim id (·.onLane (Session.codec kind) index)

/-- The messages of a kind that commands bring to a lane before its source is closed. -/
def offered : List Command → List kind.Message
  | [] => []
  | c :: rest => if c.closes kind index then [] else c.offers kind index ++ offered rest

variable {kind index} (c : Command) (l : Lane kind.Message)

theorem isOpen_onLane : (c.onLane kind index l).isOpen = (l.isOpen && !c.closes kind index) := by
  unfold onLane closes
  cases c.onStream? kind with
  | none => simp
  | some command => exact command.isOpen_onLane ..

theorem isRunning_onLane : (c.onLane kind index l).isRunning = l.isRunning := by
  unfold onLane
  cases c.onStream? kind with
  | none => rfl
  | some command => exact command.isRunning_onLane ..

theorem inbox_onLane : (c.onLane kind index l).inbox =
    l.inbox ++ if l.accepts then c.offers kind index else [] := by
  unfold onLane offers
  cases c.onStream? kind with
  | none => exact ((congrArg _ (ite_self _)).trans (List.append_nil _)).symm
  | some command => exact command.inbox_onLane ..

theorem accepts_onLane :
    (c.onLane kind index l).accepts = (l.accepts && !c.closes kind index) := by
  rw [Lane.accepts, isOpen_onLane, isRunning_onLane, Lane.accepts, Bool.and_right_comm]

theorem offers_of_closes {c : Command} (closes : c.closes kind index = true) :
    c.offers kind index = [] := by
  unfold Command.closes at closes
  unfold offers
  cases on : c.onStream? kind with
  | none => rfl
  | some command =>
    rw [on] at closes
    cases command with
    | push i messages => cases closes
    | _ => rfl

end Command

namespace Session

variable {s : Session} {kind : StreamKind} {i : Nat}

/-- A session that goes on and has a lane of this kind for each backend. The lanes without news
    have nothing to do. -/
structure Steady (kind : StreamKind) (news : List Nat) (s : Session) : Prop where
  alive : s.isAlive = true
  sized : (s.stream kind).lanes.length = s.calls.backends.length
  attended : (s.stream kind).Attended news

def lane? (kind : StreamKind) (i : Nat) (s : Session) : Option (Lane kind.Message) :=
  (s.stream kind).lanes[i]?

def closedIn (kind : StreamKind) (i : Nat) (rounds : List (List Command)) : Bool :=
  rounds.any fun commands => commands.any (·.closes kind i)

@[simp] theorem closedIn_nil : closedIn kind i [] = false := rfl

@[simp] theorem closedIn_cons (commands : List Command) (rest : List (List Command)) :
    closedIn kind i (commands :: rest) =
      (commands.any (·.closes kind i) || closedIn kind i rest) := rfl

@[simp] theorem closedIn_append (rounds later : List (List Command)) :
    closedIn kind i (rounds ++ later) = (closedIn kind i rounds || closedIn kind i later) :=
  List.any_append

theorem length_lanes {f f' : FanIn α} {g : Nat → Lane α → Lane α}
    (lanes : ∀ i, f'.lanes[i]? = f.lanes[i]?.map (g i)) : f'.lanes.length = f.lanes.length := by
  refine Nat.le_antisymm (List.getElem?_eq_none_iff.mp ?_) (List.getElem?_eq_none_iff.mp ?_)
  · rw [lanes, List.getElem?_eq_none (Nat.le_refl _)]
    rfl
  · rw [← Option.map_eq_none_iff (f := g f'.lanes.length), ← lanes]
    exact List.getElem?_eq_none (Nat.le_refl _)

theorem Steady.lane_act (steady : s.Steady kind (s.stream kind).woken) {c : Command}
    (goesOn : c.tearsDown = false) (i : Nat) :
    (s.act c).1.lane? kind i = (s.lane? kind i).map (c.onLane kind i) := by
  rw [lane?, stream_act steady.alive goesOn steady.sized, Command.onLane]
  cases c.onStream? kind with
  | none => exact Option.map_id.symm ▸ rfl
  | some command => exact FanIn.lane_act ..

theorem Steady.act (steady : s.Steady kind (s.stream kind).woken) {c : Command}
    (goesOn : c.tearsDown = false) :
    (s.act c).1.Steady kind ((s.act c).1.stream kind).woken where
  alive := isAlive_act steady.alive goesOn
  sized := by
    rw [length_calls_act, ← steady.sized]
    exact length_lanes fun i => steady.lane_act goesOn i
  attended := by
    rw [stream_act steady.alive goesOn steady.sized]
    cases c.onStream? kind with
    | none => exact steady.attended
    | some command => exact steady.attended.act (codec kind) command

theorem Steady.settle (steady : s.Steady kind (s.stream kind).woken) :
    s.settle.1.Steady kind [] ∧ ∀ i, s.settle.1.lane? kind i =
      (s.lane? kind i).map (.forward (s.stream kind).reader) := by
  have lanes (i : Nat) : s.settle.1.lane? kind i =
      (s.lane? kind i).map (.forward (s.stream kind).reader) := by
    rw [lane?, stream_settle]
    exact FanIn.lane_settle steady.attended i
  refine ⟨⟨steady.alive, ?_, fun i lane here _ => ?_⟩, lanes⟩
  · have names := congrArg List.length (names_settle s)
    rw [List.length_map, List.length_map] at names
    rw [names, ← steady.sized]
    exact length_lanes lanes
  · obtain ⟨l, -, rfl⟩ := Option.map_eq_some_iff.mp ((lanes i).symm.trans here)
    exact l.rests_forward _

theorem Steady.early (steady : s.Steady kind []) (news : List Nat) : s.Steady kind news :=
  { steady with attended := fun i lane here _ => steady.attended i lane here List.not_mem_nil }

theorem steady_ofBackends (kind : StreamKind) (backends : List Backend) (settings : Settings) :
    (ofBackends backends settings).Steady kind [] ∧
      ∀ i l, (ofBackends backends settings).lane? kind i = some l →
        l.isOpen = true ∧ l.isRunning = true ∧ l.inbox = [] := by
  have lanes : (ofBackends backends settings).stream kind =
      .ofNames kind (backends.map Backend.name) := by cases kind <;> rfl
  have new (i : Nat) (l : Lane kind.Message)
      (here : (ofBackends backends settings).lane? kind i = some l) :
      l.isOpen = true ∧ l.isRunning = true ∧ l.inbox = [] := by
    rw [lane?, lanes, FanIn.ofNames, List.getElem?_map] at here
    obtain ⟨name, -, rfl⟩ := Option.map_eq_some_iff.mp here
    exact ⟨rfl, rfl, rfl⟩
  refine ⟨⟨rfl, ?_, fun i l here _ _ => ?_⟩, new⟩
  · rw [lanes]
    simp [FanIn.ofNames, ofBackends]
  · obtain ⟨isOpen, -, empty⟩ := new i l here
    exact ⟨empty, isOpen⟩

theorem Steady.acts {commands : List Command} (steady : s.Steady kind (s.stream kind).woken)
    (goesOn : ∀ c ∈ commands, c.tearsDown = false) :
    (s.acts commands).Steady kind ((s.acts commands).stream kind).woken ∧
      ∀ i l, s.lane? kind i = some l → ∃ l', (s.acts commands).lane? kind i = some l' ∧
        l'.isOpen = (l.isOpen && !commands.any (·.closes kind i)) ∧
        l'.isRunning = l.isRunning ∧
        ofLane i (s.pushed kind commands) =
          (if l.accepts then Command.offered kind i commands else []) ∧
        l'.inbox = l.inbox ++ ofLane i (s.pushed kind commands) := by
  induction commands generalizing s with
  | nil => exact ⟨steady, fun i l here => ⟨l, here, by simp [pushed, ofLane, Command.offered]⟩⟩
  | cons c rest ih =>
    have now := goesOn c (List.mem_cons_self ..)
    obtain ⟨after, lanes⟩ := ih (steady.act now) fun c member =>
      goesOn c (List.mem_cons_of_mem _ member)
    refine ⟨after, fun i l here => ?_⟩
    have next := (steady.lane_act now i).trans (congrArg _ here)
    obtain ⟨l', here', isOpen, running, took, inbox⟩ := lanes i _ next
    have first : ofLane i ((c.onStream? kind).elim [] ((s.stream kind).takes (codec kind))) =
        if l.accepts then c.offers kind i else [] := by
      rw [Command.offers]
      cases c.onStream? kind with
      | none => exact (ite_self _).symm
      | some command =>
        refine (FanIn.ofLane_takes (codec kind) i (s.stream kind) command).trans ?_
        rw [show (s.stream kind).lanes[i]? = some l from here]
        rfl
    refine ⟨l', here', ?_, running.trans (c.isRunning_onLane l), ?_, ?_⟩
    · rw [isOpen, Command.isOpen_onLane, List.any_cons, Bool.not_or, Bool.and_assoc]
    · rw [pushed, ofLane_append, first, took, Command.accepts_onLane, Command.offered]
      cases closes : c.closes kind i with
      | true => simp [Command.offers_of_closes closes]
      | false => cases l.accepts <;> simp
    · rw [inbox, Command.inbox_onLane, pushed, ofLane_append, first, List.append_assoc]

theorem Steady.round {commands : List Command} (steady : s.Steady kind [])
    (goesOn : ∀ c ∈ commands, c.tearsDown = false) :
    (s.round commands).Steady kind [] ∧
      ∀ i l, s.lane? kind i = some l → ∃ l', (s.round commands).lane? kind i = some l' ∧
        l'.isOpen = (l.isOpen && !commands.any (·.closes kind i)) ∧
        ofLane i (s.pushed kind commands) =
          (if l.accepts then Command.offered kind i commands else []) ∧
        (l'.isRunning = true ↔ l.isRunning = true ∧ commands.any (·.closes kind i) = false ∧
          (((s.round commands).stream kind).reader = .dropped →
            ofLane i (s.pushed kind commands) = [])) := by
  obtain ⟨acted, lanes⟩ := (steady.early (s.stream kind).woken).acts goesOn
  obtain ⟨after, settled⟩ := acted.settle
  refine ⟨after, fun i l here => ?_⟩
  obtain ⟨l', here', isOpen, running, took, inbox⟩ := lanes i l here
  refine ⟨l'.forward ((s.acts commands).stream kind).reader, ?_, ?_, took, ?_⟩
  · exact (settled i).trans (congrArg _ here')
  · rw [Lane.isOpen_forward, isOpen]
  · rw [Session.round, reader_settle, Lane.isRunning_forward, running, isOpen, inbox]
    refine and_congr_right fun runs => ?_
    obtain ⟨empty, sourced⟩ := steady.attended i l here List.not_mem_nil runs
    rw [empty, sourced, List.nil_append]
    simp

theorem Steady.rounds {rounds : List (List Command)} (steady : s.Steady kind [])
    (goesOn : ∀ commands ∈ rounds, ∀ c ∈ commands, c.tearsDown = false) :
    (s.rounds rounds).Steady kind [] := by
  induction rounds generalizing s with
  | nil => exact steady
  | cons commands rest ih =>
    exact ih (steady.round (goesOn commands (List.mem_cons_self ..))).1
      fun commands member => goesOn commands (List.mem_cons_of_mem _ member)

theorem Steady.bound {news : List Nat} (steady : s.Steady kind news) {l : Lane kind.Message}
    (here : s.lane? kind i = some l) : i < s.calls.backends.length := by
  rw [← steady.sized]
  exact (List.getElem?_eq_some_iff.mp here).1

theorem Steady.lane {news : List Nat} (steady : s.Steady kind news)
    (bound : i < s.calls.backends.length) : ∃ l, s.lane? kind i = some l :=
  ⟨_, List.getElem?_eq_getElem (steady.sized ▸ bound)⟩

theorem length_rounds (s : Session) (rounds : List (List Command)) :
    (s.rounds rounds).calls.backends.length = s.calls.backends.length := by
  simpa using congrArg List.length (names_rounds s rounds)

theorem Steady.lane_of_pushed {commands : List Command} {m : Nat × kind.Message}
    (steady : s.Steady kind (s.stream kind).woken)
    (goesOn : ∀ c ∈ commands, c.tearsDown = false) (member : m ∈ s.pushed kind commands) :
    ∃ l, s.lane? kind m.1 = some l ∧ l.accepts = true := by
  induction commands generalizing s with
  | nil => cases member
  | cons c rest ih =>
    have now := goesOn c (List.mem_cons_self ..)
    rcases List.mem_append.mp member with first | later
    · cases on : c.onStream? kind with
      | none =>
        rw [on] at first
        cases first
      | some command =>
        rw [on] at first
        cases command with
        | push index messages =>
          have taken : m ∈ (s.stream kind).accepted (codec kind) index messages := first
          rw [FanIn.accepted_eq] at taken
          split at taken
          · rename_i accepts
            obtain ⟨l, here, accepts⟩ := (Option.any_eq_true ..).mp accepts
            obtain ⟨_, -, rfl⟩ := List.mem_map.mp taken
            exact ⟨l, here, accepts⟩
          · cases taken
        | _ => cases first
    · obtain ⟨l', here', accepts⟩ := ih (steady.act now)
        (fun c member => goesOn c (List.mem_cons_of_mem _ member)) later
      rw [steady.lane_act now] at here'
      obtain ⟨l, here, rfl⟩ := Option.map_eq_some_iff.mp here'
      rw [Command.accepts_onLane, Bool.and_eq_true] at accepts
      exact ⟨l, here, accepts.1⟩

theorem Steady.pushedBy_of_refused {rounds : List (List Command)} (steady : s.Steady kind [])
    (goesOn : ∀ commands ∈ rounds, ∀ c ∈ commands, c.tearsDown = false)
    (refused : ∀ i l, s.lane? kind i = some l → l.accepts = false) :
    (s.pushedBy kind rounds).flatten = [] := by
  induction rounds generalizing s with
  | nil => rfl
  | cons commands rest ih =>
    have now := goesOn commands (List.mem_cons_self ..)
    obtain ⟨after, lanes⟩ := steady.round now
    have none : s.pushed kind commands = [] := by
      refine List.eq_nil_iff_forall_not_mem.mpr fun m member => ?_
      obtain ⟨l, here, accepts⟩ := (steady.early _).lane_of_pushed now member
      rw [refused m.1 l here] at accepts
      cases accepts
    rw [pushedBy, List.flatten_cons, none, List.nil_append]
    refine ih after (fun commands member => goesOn commands (List.mem_cons_of_mem _ member))
      fun i l' here' => ?_
    obtain ⟨l, here⟩ := steady.lane (length_rounds s [commands] ▸ after.bound here')
    obtain ⟨l₁, same, isOpen, -, running⟩ := lanes i l here
    rw [here', Option.some.injEq] at same
    subst same
    rw [Lane.accepts, Bool.eq_false_iff, ne_eq, Bool.and_eq_true, isOpen, Bool.and_eq_true, running]
    rintro ⟨⟨isOpen, -⟩, runs, -⟩
    have accepts := refused i l here
    rw [Lane.accepts, isOpen, runs] at accepts
    cases accepts

end Session

end Switchboard.Mux
