import Switchboard.Proofs.Mux.Rounds

namespace Switchboard.Mux

def Codec.readable {α : Type} (codec : Codec α) : List Json → List α
  | [] => []
  | m :: rest =>
    match codec.read m with
    | .error _ => []
    | .ok message => message :: codec.readable rest

namespace Lane

variable {α : Type}

def pushAll (messages : List α) (l : Lane α) : Lane α := messages.foldl push l

/-- What the forwarder of a lane makes of it. -/
def forward (reader : Reader) (l : Lane α) : Lane α :=
  if !l.isRunning then l
  else if reader = .dropped ∧ l.inbox ≠ [] then l.stop
  else if l.isOpen then { l with inbox := [] }
  else l.stop

/-- What the forwarder of a lane writes when it ends. -/
def lastWords (kind : StreamKind) (reader : Reader) (l : Lane α) : Option Log :=
  if !l.isRunning then none
  else if reader = .dropped ∧ l.inbox ≠ [] then some (.mergedDropped kind l.name)
  else if l.isOpen then none
  else some (.sourceClosed kind l.name)

def Rests (l : Lane α) : Prop := l.isRunning = true → l.inbox = [] ∧ l.isOpen = true

theorem push_eq (l : Lane α) (message : α) :
    l.push message = { l with inbox := if l.accepts then l.inbox ++ [message] else l.inbox } := by
  unfold push
  split <;> rfl

theorem pushAll_eq (messages : List α) (l : Lane α) :
    l.pushAll messages =
      { l with inbox := if l.accepts then l.inbox ++ messages else l.inbox } := by
  induction messages generalizing l with
  | nil => simp [pushAll]
  | cons m rest ih =>
    have next := ih (l.push m)
    have still : (l.push m).accepts = l.accepts := by rw [push_eq]; rfl
    rw [still, push_eq] at next
    rw [pushAll, List.foldl_cons, push_eq]
    refine next.trans ?_
    by_cases accepts : l.accepts = true <;> simp [accepts]

theorem forward_of_rests {l : Lane α} (rests : l.Rests) (reader : Reader) :
    l.forward reader = l := by
  unfold forward
  split
  · rfl
  · rename_i runs
    obtain ⟨empty, isOpen⟩ := rests (by simpa using runs)
    rw [if_neg fun h => h.2 empty, if_pos isOpen, ← empty]

theorem lastWords_of_rests {l : Lane α} (rests : l.Rests) (kind : StreamKind) (reader : Reader) :
    l.lastWords kind reader = none := by
  unfold lastWords
  split
  · rfl
  · rename_i runs
    obtain ⟨empty, isOpen⟩ := rests (by simpa using runs)
    rw [if_neg fun h => h.2 empty, if_pos isOpen]

theorem rests_forward (l : Lane α) (reader : Reader) : (l.forward reader).Rests := by
  intro runs
  unfold forward at runs ⊢
  split
  · rename_i ended
    rw [if_pos ended] at runs
    simp [runs] at ended
  · rename_i running
    rw [if_neg running] at runs
    split
    · rename_i lost
      rw [if_pos lost] at runs
      cases runs
    · rename_i held
      rw [if_neg held] at runs
      split
      · rename_i isOpen
        exact ⟨rfl, isOpen⟩
      · rename_i shut
        rw [if_neg shut] at runs
        cases runs

theorem isOpen_forward (l : Lane α) (reader : Reader) :
    (l.forward reader).isOpen = l.isOpen := by
  unfold forward
  split
  · rfl
  · split
    · rfl
    · split <;> rfl

theorem isRunning_forward (l : Lane α) (reader : Reader) :
    (l.forward reader).isRunning = true ↔
      l.isRunning = true ∧ l.isOpen = true ∧ (reader = .dropped → l.inbox = []) := by
  unfold forward
  split
  · rename_i ended
    simp only [Bool.not_eq_true'] at ended
    simp [ended]
  · rename_i runs
    simp only [Bool.not_eq_true', Bool.not_eq_false] at runs
    split
    · rename_i lost
      exact iff_of_false nofun fun kept => lost.2 (kept.2.2 lost.1)
    · rename_i held
      have kept : reader = .dropped → l.inbox = [] := fun dropped =>
        Decidable.byContradiction fun some => held ⟨dropped, some⟩
      split
      · rename_i isOpen
        exact iff_of_true runs ⟨runs, isOpen, kept⟩
      · rename_i shut
        exact iff_of_false nofun fun all => shut all.2.1

theorem name_forward (l : Lane α) (reader : Reader) : (l.forward reader).name = l.name := by
  unfold forward
  split
  · rfl
  · split
    · rfl
    · split <;> rfl

end Lane

def StreamCommand.onLane {α : Type} (codec : Codec α) (index : Nat) :
    StreamCommand → Lane α → Lane α
  | .push i messages => if i = index then Lane.pushAll (codec.readable messages) else id
  | .close i => if i = index then Lane.close else id
  | _ => id

namespace FanIn

variable {α : Type} {f : FanIn α}

/-- Only lanes with news have anything to do. -/
def Attended (news : List Nat) (f : FanIn α) : Prop :=
  ∀ i lane, f.lanes[i]? = some lane → i ∉ news → lane.Rests

theorem lane_modify (lanes : List (Lane α)) (g : Lane α → Lane α) (index i : Nat) :
    (lanes.modify index g)[i]? = lanes[i]?.map (if i = index then g else id) := by
  rw [List.getElem?_modify]
  by_cases same : i = index
  · simp [same]
  · simp [same, Ne.symm same]

theorem lane_push (f : FanIn α) (index i : Nat) (message : α) :
    (f.push index message).1.lanes[i]? =
      f.lanes[i]?.map (if i = index then (·.push message) else id) := by
  unfold push
  cases here : f.lanes[index]? with
  | none =>
    by_cases same : i = index
    · simp [same, here]
    · simp [same]
  | some lane =>
    dsimp only
    split
    · rw [wake_eq]
      exact lane_modify ..
    · rename_i refuses
      by_cases same : i = index
      · simp [same, here, Lane.push_eq, refuses]
      · simp [same]

theorem lane_pushAll (codec : Codec α) (index i : Nat) (messages : List Json) (f : FanIn α) :
    (f.pushAll codec index messages).1.lanes[i]? =
      f.lanes[i]?.map (if i = index then Lane.pushAll (codec.readable messages) else id) := by
  induction messages generalizing f with
  | nil =>
    have same : Lane.pushAll (α := α) (codec.readable []) = id := rfl
    rw [same, ite_self, Option.map_id]
    rfl
  | cons m rest ih =>
    rw [FanIn.pushAll, Codec.readable]
    cases codec.read m with
    | error problem =>
      have same : Lane.pushAll (α := α) [] = id := rfl
      simp [same]
    | ok message =>
      refine (ih (f.push index message).1).trans ?_
      rw [lane_push, Option.map_map]
      by_cases same : i = index
      · simp only [if_pos same]
        rfl
      · simp only [if_neg same]
        rfl

theorem lane_close (f : FanIn α) (index i : Nat) :
    (f.close index).1.lanes[i]? = f.lanes[i]?.map (if i = index then .close else id) := by
  unfold close
  cases here : f.lanes[index]? with
  | none =>
    by_cases same : i = index
    · simp [same, here]
    · simp [same]
  | some lane =>
    dsimp only
    split
    · rw [wake_eq]
      exact lane_modify ..
    · rename_i shut
      by_cases same : i = index
      · have closed : lane.close = lane := by
          rw [Lane.close, ← Bool.eq_false_iff.mpr shut]
        simp [same, here, closed]
      · simp [same]

theorem lane_act (codec : Codec α) (f : FanIn α) (c : StreamCommand) (i : Nat) :
    (f.act codec c).1.lanes[i]? = f.lanes[i]?.map (c.onLane codec i) := by
  cases c with
  | push index messages =>
    have all := lane_pushAll codec index i messages f
    simp only [eq_comm (a := i)] at all
    rw [FanIn.act, StreamCommand.onLane, ← all]
    split <;> rename_i same <;> rw [same]
  | close index =>
    have one := lane_close f index i
    simp only [eq_comm (a := i)] at one
    exact one
  | take =>
    simp only [FanIn.act, FanIn.take, StreamCommand.onLane, Option.map_id, id]
    split <;> rfl
  | read max =>
    have lanes : (f.receive max).1.lanes = f.lanes := by
      unfold FanIn.receive
      split
      · rfl
      · cases max <;> rfl
    simp only [FanIn.act, lanes, StreamCommand.onLane, Option.map_id, id]
  | drop =>
    simp only [FanIn.act, FanIn.drop, StreamCommand.onLane, Option.map_id, id]
    split <;> rfl

theorem lane_forward (f : FanIn α) (index i : Nat) :
    (f.forward false index).1.lanes[i]? =
      f.lanes[i]?.map (if i = index then .forward f.reader else id) := by
  rw [forward_live]
  cases here : f.lanes[index]? with
  | none =>
    by_cases same : i = index
    · simp [same, here]
    · simp [same]
  | some lane =>
    have one (g : Lane α → Lane α) (same : lane.forward f.reader = g lane) :
        (f.lanes.modify index g)[i]? =
          f.lanes[i]?.map (if i = index then .forward f.reader else id) := by
      rw [lane_modify]
      by_cases at' : i = index
      · simp [at', here, same]
      · simp [at']
    dsimp only
    split
    · rename_i ended
      have same : lane.forward f.reader = lane := if_pos ended
      by_cases at' : i = index
      · simp [at', here, same]
      · simp [at']
    · rename_i runs
      split
      · rename_i lost
        exact one .stop (by rw [Lane.forward, if_neg runs, if_pos lost])
      · rename_i held
        split
        · rename_i isOpen
          exact one _ (by rw [Lane.forward, if_neg runs, if_neg held, if_pos isOpen])
        · rename_i shut
          exact one .stop (by rw [Lane.forward, if_neg runs, if_neg held, if_neg shut])

theorem lane_forwardAll (indices : List Nat) (f : FanIn α) (i : Nat) :
    (forwardAll false indices f).1.lanes[i]? =
      f.lanes[i]?.map (if i ∈ indices then .forward f.reader else id) := by
  induction indices generalizing f with
  | nil => simp [forwardAll]
  | cons index rest ih =>
    refine (ih (f.forward false index).1).trans ?_
    rw [lane_forward, reader_forward, Option.map_map]
    refine Option.map_congr fun lane _ => ?_
    -- a second turn finds nothing to do
    have twice := Lane.forward_of_rests (lane.rests_forward f.reader) f.reader
    by_cases same : i = index
    · subst same
      by_cases later : i ∈ rest <;> simp [later, twice]
    · by_cases later : i ∈ rest <;> simp [same, later]

theorem lane_settle (attended : f.Attended f.woken) (i : Nat) :
    f.settle.1.lanes[i]? = f.lanes[i]?.map (.forward f.reader) := by
  refine (lane_forwardAll f.woken { f with woken := [] } i).trans
    (Option.map_congr fun lane here => ?_)
  by_cases news : i ∈ f.woken
  · rw [if_pos news]
  · rw [if_neg news, Lane.forward_of_rests (attended i lane here news)]
    rfl

theorem Attended.of_lane (attended : f.Attended f.woken) {f' : FanIn α} {index : Nat}
    {g : Lane α → Lane α}
    (lanes : ∀ i, f'.lanes[i]? = f.lanes[i]?.map (if i = index then g else id))
    (news : f'.woken = f.woken ∧ (∀ l, f.lanes[index]? = some l → g l = l) ∨
      ∀ i, i ∉ f'.woken → i ∉ f.woken ∧ i ≠ index) : f'.Attended f'.woken := by
  intro i lane here calm
  rw [lanes] at here
  obtain ⟨l, before, rfl⟩ := Option.map_eq_some_iff.mp here
  rcases news with ⟨woken, same⟩ | woken
  · rw [woken] at calm
    have rests := attended i l before calm
    split
    · rename_i at'
      subst at'
      rwa [same l before]
    · exact rests
  · obtain ⟨unwoken, other⟩ := woken i calm
    rw [if_neg other]
    exact attended i l before unwoken

theorem not_mem_wake {f : FanIn α} {index i : Nat} (calm : i ∉ (f.wake index).woken) :
    i ∉ f.woken ∧ i ≠ index := by
  rwa [mem_wake, not_or] at calm

theorem Attended.push (attended : f.Attended f.woken) (index : Nat) (message : α) :
    (f.push index message).1.Attended (f.push index message).1.woken := by
  refine attended.of_lane (fun i => lane_push f index i message) ?_
  unfold FanIn.push
  cases here : f.lanes[index]? with
  | none => exact .inl ⟨rfl, nofun⟩
  | some lane =>
    dsimp only
    split
    · exact .inr fun i => not_mem_wake
    · rename_i refuses
      refine .inl ⟨rfl, fun l same => ?_⟩
      cases same
      rw [Lane.push, if_neg refuses]

theorem Attended.pushAll (codec : Codec α) (index : Nat) (messages : List Json)
    (attended : f.Attended f.woken) :
    (f.pushAll codec index messages).1.Attended (f.pushAll codec index messages).1.woken := by
  induction messages generalizing f with
  | nil => exact attended
  | cons m rest ih =>
    rw [FanIn.pushAll]
    cases codec.read m with
    | error problem => exact attended
    | ok message => exact ih (attended.push index message)

theorem Attended.close (attended : f.Attended f.woken) (index : Nat) :
    (f.close index).1.Attended (f.close index).1.woken := by
  refine attended.of_lane (fun i => lane_close f index i) ?_
  unfold FanIn.close
  cases here : f.lanes[index]? with
  | none => exact .inl ⟨rfl, nofun⟩
  | some lane =>
    dsimp only
    split
    · exact .inr fun i => not_mem_wake
    · rename_i shut
      refine .inl ⟨rfl, fun l same => ?_⟩
      cases same
      rw [Lane.close, ← Bool.eq_false_iff.mpr shut]

theorem Attended.act (codec : Codec α) (attended : f.Attended f.woken) (c : StreamCommand) :
    (f.act codec c).1.Attended (f.act codec c).1.woken := by
  cases c with
  | push index messages =>
    have after := attended.pushAll codec index messages
    rw [FanIn.act]
    split <;> rename_i same <;> rw [same] at after <;> exact after
  | close index => exact attended.close index
  | take =>
    simp only [FanIn.act, FanIn.take]
    split <;> exact attended
  | read max =>
    simp only [FanIn.act, FanIn.receive]
    split
    · exact attended
    · cases max <;> exact attended
  | drop =>
    simp only [FanIn.act, FanIn.drop]
    split <;> exact attended

theorem accepted_eq (codec : Codec α) (index : Nat) (messages : List Json) (f : FanIn α) :
    f.accepted codec index messages =
      if f.lanes[index]?.any Lane.accepts then (codec.readable messages).map (index, ·)
      else [] := by
  induction messages generalizing f with
  | nil => simp [accepted, Codec.readable]
  | cons m rest ih =>
    rw [accepted, Codec.readable]
    cases codec.read m with
    | error problem => simp
    | ok message =>
      have taken : (f.push index message).2 = f.lanes[index]?.any Lane.accepts := by
        unfold push
        cases f.lanes[index]? with
        | none => rfl
        | some lane => cases accepts : lane.accepts <;> simp [accepts]
      have still : (f.push index message).1.lanes[index]?.any Lane.accepts =
          f.lanes[index]?.any Lane.accepts := by
        rw [lane_push, if_pos rfl]
        cases f.lanes[index]? with
        | none => rfl
        | some lane =>
          rw [Option.map_some, Lane.push_eq]
          rfl
      change (if (f.push index message).2 = true then [(index, message)] else []) ++
        accepted codec index rest (f.push index message).1 = _
      rw [ih, taken, still]
      cases f.lanes[index]?.any Lane.accepts <;> simp

end FanIn

/-- The messages that a command brings to the lane at this place, as long as it takes any. -/
def StreamCommand.offers {α : Type} (codec : Codec α) (index : Nat) : StreamCommand → List α
  | .push i messages => if i = index then codec.readable messages else []
  | _ => []

def StreamCommand.closes (index : Nat) : StreamCommand → Bool
  | .close i => i == index
  | _ => false

section

variable {α : Type} (codec : Codec α) (index : Nat)

theorem FanIn.ofLane_takes (f : FanIn α) (c : StreamCommand) :
    ofLane index (f.takes codec c) =
      if f.lanes[index]?.any Lane.accepts then c.offers codec index else [] := by
  cases c with
  | push i messages =>
    rw [FanIn.takes, FanIn.accepted_eq, StreamCommand.offers]
    by_cases same : i = index
    · subst same
      rw [if_pos rfl]
      split
      · rw [ofLane_map, if_pos rfl]
      · rfl
    · rw [if_neg same, ite_self]
      split
      · rw [ofLane_map, if_neg same]
      · rfl
  | _ => exact (ite_self _).symm

variable (c : StreamCommand) (l : Lane α)

theorem StreamCommand.isOpen_onLane :
    (c.onLane codec index l).isOpen = (l.isOpen && !c.closes index) := by
  cases c with
  | push i messages =>
    rw [onLane]
    split
    · rw [Lane.pushAll_eq]
      simp [closes]
    · simp [closes]
  | close i =>
    by_cases same : i = index <;> simp [onLane, closes, same, Lane.close]
  | _ => simp [onLane, closes]

theorem StreamCommand.isRunning_onLane : (c.onLane codec index l).isRunning = l.isRunning := by
  cases c with
  | push i messages =>
    rw [onLane]
    split
    · rw [Lane.pushAll_eq]
    · rfl
  | close i =>
    rw [onLane]
    split <;> rfl
  | _ => rfl

theorem StreamCommand.inbox_onLane :
    (c.onLane codec index l).inbox = l.inbox ++ if l.accepts then c.offers codec index else [] := by
  cases c with
  | push i messages =>
    rw [onLane, offers]
    by_cases same : i = index
    · rw [if_pos same, if_pos same, Lane.pushAll_eq]
      cases l.accepts <;> simp
    · rw [if_neg same, if_neg same, ite_self, List.append_nil]
      rfl
  | close i =>
    simp only [onLane, offers, ite_self, List.append_nil]
    split <;> rfl
  | _ => simp only [onLane, offers, ite_self, List.append_nil, id]

end

end Switchboard.Mux
