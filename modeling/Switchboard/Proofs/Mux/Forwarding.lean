import Switchboard.Mux.Session

namespace Switchboard.Mux

def ofLane {β : Type} (index : Nat) (messages : List (Nat × β)) : List β :=
  messages.filterMap fun m => if m.1 = index then some m.2 else none

section

variable {β : Type} (index : Nat)

@[simp] theorem ofLane_append (messages more : List (Nat × β)) :
    ofLane index (messages ++ more) = ofLane index messages ++ ofLane index more :=
  List.filterMap_append

theorem ofLane_map (lane : Nat) (messages : List β) :
    ofLane index (messages.map (lane, ·)) = if lane = index then messages else [] := by
  rw [ofLane, List.filterMap_map, Function.comp_def]
  by_cases same : lane = index <;> simp [same]

end

namespace FanIn

variable {α : Type}

/-- The messages that a push brings in. -/
def accepted (codec : Codec α) (index : Nat) : List Json → FanIn α → List (Nat × α)
  | [], _ => []
  | m :: rest, f =>
    match codec.read m with
    | .error _ => []
    | .ok message =>
      let (f, taken) := f.push index message
      (if taken then [(index, message)] else []) ++ accepted codec index rest f

def takes (codec : Codec α) (f : FanIn α) : StreamCommand → List (Nat × α)
  | .push index messages => f.accepted codec index messages
  | _ => []

def gives (f : FanIn α) : StreamCommand → List (String × α)
  | .read max => (f.receive max).2.1
  | _ => []

def inbox (f : FanIn α) (index : Nat) : List α := (f.lanes[index]?.map Lane.inbox).getD []

theorem names_modify {lanes : List (Lane α)} {g : Lane α → Lane α}
    (kept : ∀ lane, (g lane).name = lane.name) (index : Nat) :
    (lanes.modify index g).map Lane.name = lanes.map Lane.name := by
  refine List.ext_getElem? fun i => ?_
  rw [List.getElem?_map, List.getElem?_map, List.getElem?_modify]
  cases lanes[i]? with
  | none => rfl
  | some lane => by_cases same : index = i <;> simp [same, kept]

theorem inbox_modify {f : FanIn α} {index : Nat} {lane : Lane α}
    (here : f.lanes[index]? = some lane) (g : Lane α → Lane α) (i : Nat) :
    inbox { f with lanes := f.lanes.modify index g } i =
      if i = index then (g lane).inbox else f.inbox i := by
  by_cases same : i = index
  · subst same
    simp [inbox, here]
  · simp [inbox, same, Ne.symm same]

theorem inbox_of_lane {f : FanIn α} {index : Nat} {lane : Lane α}
    (here : f.lanes[index]? = some lane) : f.inbox index = lane.inbox := by
  rw [inbox, here]
  rfl

theorem forall_mem_modify {lanes : List (Lane α)} {index : Nat} {lane : Lane α}
    (here : lanes[index]? = some lane) {g : Lane α → Lane α} {p : Lane α → Prop}
    (all : ∀ l ∈ lanes, p l) (new : p (g lane)) : ∀ l ∈ lanes.modify index g, p l := by
  intro l member
  obtain ⟨i, bound, rfl⟩ := List.getElem_of_mem member
  have inRange : i < lanes.length := by simpa using bound
  rw [List.getElem_modify]
  split
  · rename_i same
    subst same
    rw [List.getElem?_eq_getElem inRange, Option.some.injEq] at here
    rwa [here]
  · exact all _ (List.getElem_mem inRange)

/-- The messages `pushed` are those that have been forwarded and those that the lanes hold, in the
    order of each lane. The forwarded ones have been given to the consumer or wait for it, in their
    order and under their lanes' names. Only lanes with news hold any. -/
structure Conserves (names : List String) (pushed forwarded : List (Nat × α))
    (given : List (String × α)) (news : List Nat) (f : FanIn α) : Prop where
  named : f.lanes.map Lane.name = names
  merged : (given ++ f.merged).map (fun m => (some m.1, m.2)) =
    forwarded.map fun m => (names[m.1]?, m.2)
  balanced : ∀ i, ofLane i forwarded ++ f.inbox i = ofLane i pushed
  drained : ∀ lane ∈ f.lanes, lane.isRunning = false → lane.inbox = []
  waits : ∀ i, f.inbox i ≠ [] → i ∈ news

theorem mem_wake (f : FanIn α) (index i : Nat) :
    i ∈ (f.wake index).woken ↔ i ∈ f.woken ∨ i = index := by
  unfold wake
  split
  · rename_i here
    exact ⟨.inl, fun h => h.elim id fun same => same ▸ List.contains_iff_mem.mp here⟩
  · simp

theorem wake_eq (f : FanIn α) (index : Nat) :
    f.wake index = { f with woken := (f.wake index).woken } := by
  unfold wake
  split <;> rfl

variable {names : List String} {pushed forwarded : List (Nat × α)} {given : List (String × α)}
  {news : List Nat} {f : FanIn α}

theorem forward_eq (isCancelled : Bool) (f : FanIn α) (index : Nat) :
    ∃ lanes merged, (f.forward isCancelled index).1 = { f with lanes, merged } := by
  unfold forward
  split
  · exact ⟨_, _, rfl⟩
  · split
    · exact ⟨_, _, rfl⟩
    · split
      · exact ⟨_, _, rfl⟩
      · split
        · exact ⟨_, _, rfl⟩
        · dsimp only
          split <;> exact ⟨_, _, rfl⟩

theorem forward_live (f : FanIn α) (index : Nat) :
    f.forward false index = match f.lanes[index]? with
      | none => (f, [])
      | some lane =>
        if !lane.isRunning then (f, [])
        else if f.reader = .dropped ∧ lane.inbox ≠ [] then
          ({ f with lanes := f.lanes.modify index .stop }, [.mergedDropped f.kind lane.name])
        else
          let merged := f.merged ++ lane.inbox.map (lane.name, ·)
          if lane.isOpen then
            ({ f with lanes := f.lanes.modify index fun l => { l with inbox := [] }, merged }, [])
          else
            ({ f with lanes := f.lanes.modify index .stop, merged },
              [.sourceClosed f.kind lane.name]) := rfl

theorem reader_forward (isCancelled : Bool) (f : FanIn α) (index : Nat) :
    (f.forward isCancelled index).1.reader = f.reader := by
  obtain ⟨lanes, merged, same⟩ := f.forward_eq isCancelled index
  rw [same]

theorem reader_forwardAll (isCancelled : Bool) (indices : List Nat) (f : FanIn α) :
    (forwardAll isCancelled indices f).1.reader = f.reader := by
  induction indices generalizing f with
  | nil => rfl
  | cons index rest ih =>
    exact (ih (f.forward isCancelled index).1).trans (reader_forward isCancelled f index)

theorem act_beyond {codec : Codec α} {c : StreamCommand}
    (beyond : c.backend?.any (f.lanes.length ≤ ·) = true) : (f.act codec c).1 = f := by
  cases c with
  | push index messages =>
    have absent : f.lanes[index]? = none := List.getElem?_eq_none (of_decide_eq_true beyond)
    have all : (f.pushAll codec index messages).1 = f := by
      clear beyond
      induction messages with
      | nil => rfl
      | cons m rest ih =>
        rw [pushAll]
        cases codec.read m with
        | error problem => rfl
        | ok message => simpa only [push, absent] using ih
    rw [FanIn.act]
    split <;> rename_i same <;> rw [same] at all <;> exact all
  | close index =>
    have absent : f.lanes[index]? = none := List.getElem?_eq_none (of_decide_eq_true beyond)
    simp only [FanIn.act, close, absent]
  | _ => cases beyond

theorem reader_wake (f : FanIn α) (index : Nat) : (f.wake index).reader = f.reader := by
  rw [wake_eq]

theorem reader_push (f : FanIn α) (index : Nat) (message : α) :
    (f.push index message).1.reader = f.reader := by
  unfold push
  split
  · rfl
  · split
    · exact reader_wake ..
    · rfl

theorem reader_pushAll (codec : Codec α) (index : Nat) (messages : List Json) (f : FanIn α) :
    (f.pushAll codec index messages).1.reader = f.reader := by
  induction messages generalizing f with
  | nil => rfl
  | cons m rest ih =>
    rw [pushAll]
    cases codec.read m with
    | error problem => rfl
    | ok message => exact (ih _).trans (reader_push f index message)

theorem reader_close (f : FanIn α) (index : Nat) : (f.close index).1.reader = f.reader := by
  unfold close
  split
  · rfl
  · split
    · exact reader_wake ..
    · rfl

theorem dropped_act {codec : Codec α} {c : StreamCommand} (dropped : f.reader = .dropped) :
    (f.act codec c).1.reader = .dropped := by
  cases c with
  | push index messages =>
    rw [FanIn.act, ← dropped, ← reader_pushAll codec index messages f]
    split <;> rename_i same <;> rw [same]
  | close index => exact (reader_close f index).trans dropped
  | take => simp [FanIn.act, take, dropped]
  | read max => simp [FanIn.act, receive, dropped]
  | drop => simp [FanIn.act, drop, dropped]

theorem dropped_release (dropped : f.reader = .dropped) : f.release.reader = .dropped := by
  rw [release, dropped]
  rfl

namespace Conserves

theorem push (conserves : Conserves names pushed forwarded given f.woken f) (index : Nat)
    (message : α) :
    Conserves names (pushed ++ if (f.push index message).2 then [(index, message)] else [])
      forwarded given (f.push index message).1.woken (f.push index message).1 := by
  unfold FanIn.push
  cases here : f.lanes[index]? with
  | none => simpa using conserves
  | some lane =>
    dsimp only
    split
    · rename_i accepts
      have running : lane.isRunning = true := (Bool.and_eq_true_iff.mp accepts).2
      have pushed : lane.push message = { lane with inbox := lane.inbox ++ [message] } := by
        rw [Lane.push, if_pos accepts]
      have holds (i : Nat) := inbox_modify here (·.push message) i
      rw [wake_eq]
      exact {
        named := (names_modify (fun l => by unfold Lane.push; split <;> rfl) index).trans
          conserves.named
        merged := conserves.merged
        balanced := fun i => by
          refine (congrArg _ (holds i)).trans ?_
          rw [ofLane_append, ← conserves.balanced i]
          by_cases same : i = index
          · subst same
            rw [if_pos rfl, inbox_of_lane here, pushed]
            simp [ofLane]
          · rw [if_neg same]
            simp [ofLane, Ne.symm same]
        drained := forall_mem_modify here conserves.drained fun ended => by
          rw [pushed] at ended
          exact absurd (running.symm.trans ended) (by simp)
        waits := fun i some => by
          rw [mem_wake]
          by_cases same : i = index
          · exact .inr same
          · refine .inl (conserves.waits i fun none => some ?_)
            refine (holds i).trans ?_
            rw [if_neg same, none] }
    · simpa using conserves

theorem pushAll (codec : Codec α) (index : Nat) (messages : List Json)
    (conserves : Conserves names pushed forwarded given f.woken f) :
    Conserves names (pushed ++ f.accepted codec index messages) forwarded given
      (f.pushAll codec index messages).1.woken (f.pushAll codec index messages).1 := by
  induction messages generalizing f pushed with
  | nil => simpa [accepted, FanIn.pushAll] using conserves
  | cons m rest ih =>
    rw [FanIn.pushAll, accepted]
    cases codec.read m with
    | error problem => simpa using conserves
    | ok message =>
      have next := ih (conserves.push index message)
      rw [List.append_assoc] at next
      exact next

theorem close (conserves : Conserves names pushed forwarded given f.woken f) (index : Nat) :
    Conserves names pushed forwarded given (f.close index).1.woken (f.close index).1 := by
  unfold FanIn.close
  cases here : f.lanes[index]? with
  | none => exact conserves
  | some lane =>
    dsimp only
    split
    · have holds (i : Nat) :
          inbox { f with lanes := f.lanes.modify index .close } i = f.inbox i := by
        rw [inbox_modify here]
        split
        · rename_i same
          rw [same, inbox_of_lane here]
          rfl
        · rfl
      rw [wake_eq]
      exact {
        named := (names_modify (g := .close) (fun _ => rfl) index).trans conserves.named
        merged := conserves.merged
        balanced := fun i => (congrArg _ (holds i)).trans (conserves.balanced i)
        drained := forall_mem_modify here conserves.drained
          (conserves.drained lane (List.mem_of_getElem? here))
        waits := fun i some => by
          rw [mem_wake]
          exact .inl (conserves.waits i fun none => some ((holds i).trans none)) }
    · exact conserves

theorem receive (conserves : Conserves names pushed forwarded given news f) (max : Option Nat) :
    Conserves names pushed forwarded (given ++ (f.receive max).2.1) news (f.receive max).1 := by
  unfold FanIn.receive
  split
  · simpa using conserves
  · cases max with
    | none => exact { conserves with merged := by simpa using conserves.merged }
    | some n =>
      refine { conserves with merged := ?_ }
      simp only [List.append_assoc, List.take_append_drop]
      exact conserves.merged

theorem act (codec : Codec α) (conserves : Conserves names pushed forwarded given f.woken f)
    (c : StreamCommand) (held : (f.act codec c).1.reader ≠ .dropped) :
    Conserves names (pushed ++ f.takes codec c) forwarded (given ++ f.gives c)
      (f.act codec c).1.woken (f.act codec c).1 := by
  cases c with
  | push index messages =>
    have after := conserves.pushAll codec index messages
    simp only [takes, gives, List.append_nil, FanIn.act]
    split <;> rename_i same <;> rw [same] at after <;> exact after
  | close index =>
    simp only [takes, gives, List.append_nil]
    exact conserves.close index
  | take =>
    simp only [takes, gives, List.append_nil, FanIn.act, FanIn.take]
    split
    · exact { conserves with }
    · exact conserves
  | read max =>
    simp only [takes, gives, List.append_nil]
    have woken : (f.receive max).1.woken = f.woken := by
      unfold FanIn.receive
      split
      · rfl
      · cases max <;> rfl
    have after := conserves.receive max
    rw [← woken] at after
    exact after
  | drop =>
    simp only [FanIn.act, FanIn.drop] at held ⊢
    split at held
    · exact absurd rfl held
    · rename_i other
      simp only [if_neg other, takes, gives, List.append_nil]
      exact conserves

theorem skip {index : Nat} {rest : List Nat} (empty : f.inbox index = [])
    (conserves : Conserves names pushed forwarded given (index :: rest) f) :
    Conserves names pushed forwarded given rest f :=
  { conserves with
    waits := fun i some => (List.mem_cons.mp (conserves.waits i some)).resolve_left fun same =>
      some (same ▸ empty) }

theorem move {index : Nat} {rest : List Nat} {lane : Lane α}
    (conserves : Conserves names pushed forwarded given (index :: rest) f)
    (here : f.lanes[index]? = some lane) (g : Lane α → Lane α)
    (kept : ∀ l, (g l).name = l.name) (emptied : (g lane).inbox = []) :
    Conserves names pushed (forwarded ++ lane.inbox.map (index, ·)) given rest
      { f with
        lanes := f.lanes.modify index g
        merged := f.merged ++ lane.inbox.map (lane.name, ·) } := by
  -- the lane gives up what it held, the others keep theirs
  have left (i : Nat) : inbox { f with lanes := f.lanes.modify index g } i =
      if i = index then [] else f.inbox i := by
    rw [inbox_modify here, emptied]
  exact {
    named := (names_modify kept index).trans conserves.named
    merged := by
      have name : names[index]? = some lane.name := by
        rw [← conserves.named, List.getElem?_map, here]
        rfl
      rw [← List.append_assoc, List.map_append, conserves.merged, List.map_append, List.map_map,
        List.map_map]
      simp [Function.comp_def, name]
    balanced := fun i => by
      refine (congrArg _ (left i)).trans ?_
      rw [← conserves.balanced, ofLane_append, ofLane_map]
      by_cases same : i = index
      · simp [same, inbox_of_lane here]
      · simp [same, Ne.symm same]
    drained := forall_mem_modify here conserves.drained fun _ => emptied
    waits := fun i some => by
      have some : (if i = index then [] else f.inbox i) ≠ [] := left i ▸ some
      by_cases same : i = index
      · exact absurd (if_pos same) some
      · rw [if_neg same] at some
        exact (List.mem_cons.mp (conserves.waits i some)).resolve_left same }

theorem forward {index : Nat} {rest : List Nat} (held : f.reader ≠ .dropped)
    (conserves : Conserves names pushed forwarded given (index :: rest) f) :
    ∃ block, Conserves names pushed (forwarded ++ block) given rest
      (f.forward false index).1 := by
  have nothing (empty : f.inbox index = []) :
      ∃ block, Conserves names pushed (forwarded ++ block) given rest f :=
    ⟨[], by rw [List.append_nil]; exact conserves.skip empty⟩
  rw [forward_live]
  cases here : f.lanes[index]? with
  | none => exact nothing (by rw [inbox, here]; rfl)
  | some lane =>
    dsimp only
    split
    · rename_i ended
      have empty := conserves.drained lane (List.mem_of_getElem? here) (by simpa using ended)
      exact nothing ((inbox_of_lane here).trans empty)
    · rw [if_neg (fun h => held h.1)]
      refine ⟨lane.inbox.map (index, ·), ?_⟩
      split
      · exact conserves.move here (fun l => { l with inbox := [] }) (fun _ => rfl) rfl
      · exact conserves.move here .stop (fun _ => rfl) rfl

theorem forwardAll {indices : List Nat} (held : f.reader ≠ .dropped)
    (conserves : Conserves names pushed forwarded given indices f) :
    ∃ block, Conserves names pushed (forwarded ++ block) given []
      (forwardAll false indices f).1 := by
  induction indices generalizing f forwarded with
  | nil => exact ⟨[], by simpa [FanIn.forwardAll] using conserves⟩
  | cons index rest ih =>
    obtain ⟨block, first⟩ := conserves.forward held
    obtain ⟨more, all⟩ := ih (by rwa [reader_forward]) first
    exact ⟨block ++ more, by rw [← List.append_assoc]; exact all⟩

theorem early (conserves : Conserves names pushed forwarded given [] f) :
    Conserves names pushed forwarded given news f :=
  { conserves with waits := fun i some => absurd (conserves.waits i some) List.not_mem_nil }

theorem inbox_of_rested (conserves : Conserves names pushed forwarded given [] f) (i : Nat) :
    f.inbox i = [] :=
  Decidable.byContradiction fun some => List.not_mem_nil (conserves.waits i some)

theorem ofLane_of_rested (conserves : Conserves names pushed forwarded given [] f) (i : Nat) :
    ofLane i forwarded = ofLane i pushed := by
  rw [← conserves.balanced i, conserves.inbox_of_rested, List.append_nil]

theorem settle (held : f.reader ≠ .dropped)
    (conserves : Conserves names pushed forwarded given f.woken f) :
    ∃ block, Conserves names pushed (forwarded ++ block) given [] f.settle.1 :=
  forwardAll (f := { f with woken := [] }) held { conserves with }

end Conserves

theorem conserves_ofNames (kind : StreamKind) (names : List String) :
    Conserves names [] [] [] [] (ofNames kind names : FanIn α) := by
  have lanes : ∀ lane ∈ (ofNames kind names : FanIn α).lanes, lane.inbox = [] := by
    intro lane member
    obtain ⟨name, -, rfl⟩ := List.mem_map.mp member
    rfl
  have empty (i : Nat) : (ofNames kind names : FanIn α).inbox i = [] := by
    cases here : (ofNames kind names : FanIn α).lanes[i]? with
    | none => rw [inbox, here]; rfl
    | some lane => exact (inbox_of_lane here).trans (lanes lane (List.mem_of_getElem? here))
  exact {
    named := by simp [ofNames, Function.comp_def]
    merged := rfl
    balanced := fun i => by rw [empty i]; rfl
    drained := fun lane member _ => lanes lane member
    waits := fun i some => absurd (empty i) some }

end FanIn

end Switchboard.Mux
