import Mathlib.Data.List.Induction
import Switchboard.Proofs.Mux.LaneRounds
import Switchboard.Proofs.Mux.LogLines

namespace Switchboard.Mux

namespace FanIn

variable {α : Type} {f : FanIn α}

def halts (f : FanIn α) : List (Nat × Log) :=
  f.woken.filterMap fun i => (f.lanes[i]?.bind (Lane.lastWords f.kind f.reader)).map (i, ·)

theorem logs_forwardAll {indices : List Nat} (distinct : indices.Nodup) (f : FanIn α) :
    (forwardAll false indices f).2 =
      indices.filterMap fun i => f.lanes[i]?.bind (Lane.lastWords f.kind f.reader) := by
  induction indices generalizing f with
  | nil => rfl
  | cons index rest ih =>
    obtain ⟨fresh, distinct⟩ := List.nodup_cons.mp distinct
    have later : (forwardAll false rest (f.forward false index).1).2 =
        rest.filterMap fun i => f.lanes[i]?.bind (Lane.lastWords f.kind f.reader) := by
      rw [ih distinct, kind_forward, reader_forward]
      refine List.filterMap_congr fun i member => ?_
      have other : i ≠ index := fun same => fresh (same ▸ member)
      rw [lane_forward, if_neg other, Option.map_id, id]
    rw [forwardAll, List.filterMap_cons]
    dsimp only
    rw [later, logs_forward]
    cases f.lanes[index]?.bind (Lane.lastWords f.kind f.reader) <;> rfl

theorem logs_settle (distinct : f.woken.Nodup) : f.settle.2 = f.halts.map Prod.snd := by
  rw [settle, logs_forwardAll distinct, halts, List.map_filterMap]
  refine List.filterMap_congr fun i _ => ?_
  rw [Option.map_map, Function.comp_def, Option.map_id']

theorem mem_halts (attended : f.Attended f.woken) {i : Nat} {log : Log} : (i, log) ∈ f.halts ↔
    ∃ lane, f.lanes[i]? = some lane ∧ lane.lastWords f.kind f.reader = some log := by
  rw [halts, List.mem_filterMap]
  -- a lane without news rests, and its forwarder would write nothing
  constructor
  · rintro ⟨j, -, words⟩
    obtain ⟨log, words, same⟩ := Option.map_eq_some_iff.mp words
    cases same
    exact Option.bind_eq_some_iff.mp words
  · rintro ⟨lane, here, words⟩
    refine ⟨i, ?_, by rw [here, Option.bind_some, words]; rfl⟩
    by_contra calm
    rw [Lane.lastWords_of_rests (attended i lane here calm)] at words
    cases words

theorem halts_nodup (distinct : f.woken.Nodup) : (f.halts.map Prod.fst).Nodup := by
  have fewer (l : List Nat) : ((l.filterMap fun i =>
      (f.lanes[i]?.bind (Lane.lastWords f.kind f.reader)).map (i, ·)).map Prod.fst).Sublist l := by
    induction l with
    | nil => exact .slnil
    | cons i rest ih =>
      rw [List.filterMap_cons]
      cases f.lanes[i]?.bind (Lane.lastWords f.kind f.reader) with
      | none => exact ih.cons i
      | some log => exact ih.cons_cons i
  exact distinct.sublist (fewer f.woken)

/-- The forwarders that end, each with its record as it is written. -/
def haltLines (wording : Json → String) (f : FanIn α) : List (Nat × LogLine) :=
  f.halts.map fun h => (h.1, h.2.line wording)

theorem mem_haltLines {wording : Json → String} {i : Nat} {line : LogLine} :
    (i, line) ∈ f.haltLines wording ↔ ∃ log, (i, log) ∈ f.halts ∧ log.line wording = line := by
  simp [haltLines]

theorem fst_haltLines (wording : Json → String) :
    (f.haltLines wording).map Prod.fst = f.halts.map Prod.fst := by
  simp [haltLines]

theorem snd_haltLines (wording : Json → String) :
    (f.haltLines wording).map Prod.snd = (f.halts.map Prod.snd).map (Log.line wording) := by
  simp [haltLines]

/-- What holds of a fan-in after a command, when it does not depend on the lanes, on what the
    consumer has done and on the merged messages, and news of lanes do it no harm. -/
theorem act_keeps {P : FanIn α → Prop} (codec : Codec α)
    (wakes : ∀ (f : FanIn α) lanes index, P f → P ({ f with lanes }.wake index))
    (reads : ∀ (f : FanIn α) reader merged, P f → P { f with reader, merged })
    (holds : P f) (c : StreamCommand) : P (f.act codec c).1 := by
  have push {f : FanIn α} (holds : P f) (index : Nat) (message : α) :
      P (f.push index message).1 := by
    unfold FanIn.push
    split
    · exact holds
    · split
      · exact wakes f _ index holds
      · exact holds
  cases c with
  | push index messages =>
    have all : P (f.pushAll codec index messages).1 := by
      induction messages generalizing f with
      | nil => exact holds
      | cons m rest ih =>
        rw [pushAll]
        cases codec.read m with
        | error problem => exact holds
        | ok message => exact ih (push holds index message)
    rw [FanIn.act]
    split <;> rename_i same <;> rw [same] at all <;> exact all
  | close index =>
    simp only [FanIn.act, FanIn.close]
    split
    · exact holds
    · split
      · exact wakes f _ index holds
      · exact holds
  | take =>
    simp only [FanIn.act, FanIn.take]
    split
    · exact reads f _ _ holds
    · exact holds
  | read max =>
    simp only [FanIn.act, FanIn.receive]
    split
    · exact holds
    · cases max with
      | none => exact reads f _ _ holds
      | some n => exact reads f _ _ holds
  | drop =>
    simp only [FanIn.act, FanIn.drop]
    split
    · exact reads f _ _ holds
    · exact holds

theorem kind_act (codec : Codec α) (f : FanIn α) (c : StreamCommand) :
    (f.act codec c).1.kind = f.kind :=
  act_keeps (P := fun f' => f'.kind = f.kind) codec
    (fun f' lanes index same => by rw [wake_eq]; exact same) (fun _ _ _ same => same) rfl c

theorem woken_nodup_act (codec : Codec α) (distinct : f.woken.Nodup) (c : StreamCommand) :
    (f.act codec c).1.woken.Nodup := by
  refine act_keeps (P := fun f => f.woken.Nodup) codec ?_ (fun _ _ _ => id) distinct c
  intro f lanes index distinct
  unfold wake
  split
  · exact distinct
  · rename_i calm
    refine List.nodup_append.mpr ⟨distinct, List.nodup_singleton index, fun i old j new same => ?_⟩
    cases List.mem_singleton.mp new
    exact calm (List.contains_iff_mem.mpr (same ▸ old))

end FanIn

namespace Lane

variable {α : Type} (l : Lane α) (kind : StreamKind) (reader : Reader)

theorem isRunning_forward_iff : (l.forward reader).isRunning = true ↔
    l.isRunning = true ∧ l.lastWords kind reader = none := by
  unfold forward lastWords
  split
  · rename_i ended
    exact iff_of_false (by simpa using ended) fun runs => by simp [runs.1] at ended
  · rename_i runs
    have runs : l.isRunning = true := by simpa using runs
    split
    · exact iff_of_false Bool.false_ne_true fun none => nomatch none.2
    · split
      · exact iff_of_true runs ⟨runs, rfl⟩
      · exact iff_of_false Bool.false_ne_true fun none => nomatch none.2

end Lane

namespace Command

variable {kind : StreamKind} {index : Nat} (c : Command) (l : Lane kind.Message)

theorem name_onLane : (c.onLane kind index l).name = l.name := by
  unfold onLane
  cases c.onStream? kind with
  | none => rfl
  | some command =>
    cases command with
    | push i messages =>
      dsimp only [Option.elim, StreamCommand.onLane]
      split
      · rw [Lane.pushAll_eq]
      · rfl
    | close i =>
      dsimp only [Option.elim, StreamCommand.onLane]
      split <;> rfl
    | _ => rfl

variable {l} {reader : Reader} {log : Log}

theorem lastWords_onLane (rests : l.Rests) :
    (c.onLane kind index l).lastWords kind reader = some log ↔ l.isRunning = true ∧
      (reader = .dropped ∧ c.offers kind index ≠ [] ∧ log = .mergedDropped kind l.name ∨
        c.closes kind index = true ∧ log = .sourceClosed kind l.name) := by
  unfold Lane.lastWords
  rw [isRunning_onLane, isOpen_onLane, inbox_onLane, name_onLane]
  split
  · rename_i ended
    exact iff_of_false nofun fun runs => by simp [runs.1] at ended
  · rename_i runs
    have runs : l.isRunning = true := by simpa using runs
    obtain ⟨empty, isOpen⟩ := rests runs
    rw [Lane.accepts, isOpen, runs, empty, Bool.and_self, if_pos rfl, List.nil_append,
      Bool.true_and]
    split
    · rename_i lost
      have open' : c.closes kind index = false :=
        Bool.eq_false_iff.mpr fun closes => lost.2 (offers_of_closes closes)
      simp [lost, open', eq_comm]
    · rename_i held
      cases closes : c.closes kind index with
      | true => simp [offers_of_closes closes, eq_comm]
      | false =>
        have read : reader = .dropped → c.offers kind index = [] := fun dropped =>
          Decidable.byContradiction fun some => held ⟨dropped, some⟩
        simp +contextual [read]

end Command

theorem Log.kind_of_isStop {kind kind' : StreamKind} {log : Log} (stops : log.isStop kind = true)
    (stops' : log.isStop kind' = true) : kind = kind' := by
  cases log <;> first
    | exact (of_decide_eq_true stops).symm.trans (of_decide_eq_true stops')
    | cases stops

theorem Log.isForwarding_of_isStop {kind kind' : StreamKind} {log : Log}
    (stops : log.isStop kind' = true) : log.isForwarding kind = false := by
  cases log <;> first | rfl | cases stops

theorem Log.isForwarding_of_not_isOfForwarder {kind : StreamKind} {log : Log}
    (other : log.isOfForwarder = false) : log.isForwarding kind = false := by
  cases log <;> first | rfl | cases other

namespace CallSide

variable {s s' : CallSide} {es : List Effect}

theorem Happens.not_ofForwarder (happens : s.Happens s' es) :
    ∀ log ∈ logs es, log.isOfForwarder = false := by
  have plain {es : List Effect} (plain : ∀ e ∈ es, e.isPlain = true) :
      ∀ log ∈ logs es, log.isOfForwarder = false := fun log member =>
    Log.isOfForwarder_of_isAboutNotifications (logs_of_plain plain log member)
  have opens (params : Json) :
      ∀ log ∈ logs (fanOutEffects s.backends params), log.isOfForwarder = false := by
    rw [logs_fanOutEffects]
    exact List.forall_mem_singleton.mpr rfl
  have drops {β : Type} (l : List β) (f : β → String × String) :
      ∀ log ∈ l.map (fun r => Log.requestDropped (f r).1 (f r).2), log.isOfForwarder = false := by
    intro log member
    obtain ⟨r, -, rfl⟩ := List.mem_map.mp member
    rfl
  cases happens with
  | concludes _ _ _ _ all =>
    rw [logs_append]
    exact List.forall_mem_append.mpr ⟨plain all, nofun⟩
  | stalls _ _ all => exact plain all
  | opens => exact opens _
  | turns => exact opens _
  | @advances a held =>
    unfold advance
    split
    · nofun
    · rw [logs_publish]
      refine List.forall_mem_append.mpr ⟨fun log member => ?_, List.forall_mem_singleton.mpr rfl⟩
      exact Log.isOfForwarder_of_isOfHandshake (Phase.isOfHandshake_warned _ log member)
    · rw [logs_failAttempt]
      have dropped := drops (a.finished.filter fun r => r.2.isDropped) fun r =>
        (s.nameOf r.1, handshakeMethod)
      refine List.forall_mem_append.mpr ⟨dropped, ?_⟩
      split
      · nofun
      · exact List.forall_mem_singleton.mpr rfl
  | ends =>
    rw [logs_endRouted]
    exact drops _ fun r : Routed => (s.nameOf 0, r.method)
  | _ => nofun

theorem Runs.not_ofForwarder (runs : s.Runs s' es) :
    ∀ log ∈ logs es, log.isOfForwarder = false := by
  induction runs with
  | rest => nofun
  | more _ next ih =>
    rw [logs_append]
    exact List.forall_mem_append.mpr ⟨ih, next.not_ofForwarder⟩

end CallSide

namespace Session

variable {s : Session} {c : Command} {kind : StreamKind} {names : List String}
  {settings : Settings} {commands : List Command} (wording : Json → String)

def Forwards (kind : StreamKind) (i : Nat) (s : Session) : Prop :=
  ∃ lane, s.lane? kind i = some lane ∧ lane.isRunning = true

/-- A command ends the forwarder of the backend at `i`, which writes this: the peer has dropped its
    sender, or it pushes something after the consumer has dropped the merged stream. -/
inductive Stops (names : List String) (kind : StreamKind) (s : Session) (c : Command) (i : Nat) :
    LogLine → Prop
  | sourceClosed {name : String} (named : names[i]? = some name) (runs : s.Forwards kind i)
      (closes : c.closes kind i = true) :
      Stops names kind s c i ⟨"DEBUG", "lspx::forward",
        "Backend '" ++ name ++ "' closed its " ++ kind.text ++ " stream"⟩
  | mergedDropped {name : String} (named : names[i]? = some name) (runs : s.Forwards kind i)
      (pushes : c.offers kind i ≠ []) (dropped : (s.stream kind).reader = .dropped) :
      Stops names kind s c i ⟨"DEBUG", "lspx::forward",
        "Merged " ++ kind.text ++ " stream dropped, stopping forwarder for '" ++ name ++ "'"⟩

theorem Stops.forwards {i : Nat} {line : LogLine} (stops : Stops names kind s c i line) :
    s.Forwards kind i := by
  cases stops with
  | sourceClosed _ runs => exact runs
  | mergedDropped _ runs => exact runs

structure Relays (names : List String) (kind : StreamKind) (s : Session) : Prop where
  steady : s.Steady kind []
  woken : (s.stream kind).woken = []
  ofKind : (s.stream kind).kind = kind
  named : (s.stream kind).lanes.map Lane.name = names

theorem Relays.name (relays : s.Relays names kind) {i : Nat} {lane : Lane kind.Message}
    (here : s.lane? kind i = some lane) : names[i]? = some lane.name := by
  rw [← relays.named, List.getElem?_map, show (s.stream kind).lanes[i]? = some lane from here]
  rfl

theorem reader_of_offers (alive : s.isAlive = true) (goesOn : c.tearsDown = false)
    (length : (s.stream kind).lanes.length = s.calls.backends.length) {i : Nat}
    (pushes : c.offers kind i ≠ []) :
    ((s.act c).1.stream kind).reader = (s.stream kind).reader := by
  rw [stream_act alive goesOn length]
  unfold Command.offers at pushes
  cases on : c.onStream? kind with
  | none => rfl
  | some command =>
    rw [on] at pushes
    cases command with
    | push index messages =>
      have kept := FanIn.reader_pushAll (codec kind) index messages (s.stream kind)
      rw [Option.elim_some, FanIn.act]
      split <;> rename_i same <;> rw [same] at kept <;> exact kept
    | _ => exact absurd rfl pushes

namespace Relays

theorem acted (relays : s.Relays names kind) (goesOn : c.tearsDown = false) :
    ((s.act c).1.stream kind).kind = kind ∧ ((s.act c).1.stream kind).woken.Nodup := by
  have distinct : (s.stream kind).woken.Nodup := relays.woken ▸ List.nodup_nil
  rw [stream_act relays.steady.alive goesOn relays.steady.sized]
  cases c.onStream? kind with
  | none => exact ⟨relays.ofKind, distinct⟩
  | some command =>
    exact ⟨(FanIn.kind_act ..).trans relays.ofKind, FanIn.woken_nodup_act _ distinct command⟩

theorem mem_halts (relays : s.Relays names kind) (goesOn : c.tearsDown = false) {i : Nat}
    {log : Log} : (i, log) ∈ ((s.act c).1.stream kind).halts ↔
      ∃ l, s.lane? kind i = some l ∧ (c.onLane kind i l).lastWords kind
        ((s.act c).1.stream kind).reader = some log := by
  have steady := relays.steady.early (s.stream kind).woken
  have lane : ((s.act c).1.stream kind).lanes[i]? = (s.lane? kind i).map (c.onLane kind i) :=
    steady.lane_act goesOn i
  rw [FanIn.mem_halts (steady.act goesOn).attended, (relays.acted goesOn).1, lane]
  simp only [Option.map_eq_some_iff, exists_exists_and_eq_and]

theorem mem_haltLines_iff (relays : s.Relays names kind) (goesOn : c.tearsDown = false) {i : Nat}
    {line : LogLine} : (i, line) ∈ ((s.act c).1.stream kind).haltLines wording ↔
      Stops names kind s c i line := by
  have steady := relays.steady.early (s.stream kind).woken
  rw [FanIn.mem_haltLines]
  simp only [relays.mem_halts goesOn]
  constructor
  · rintro ⟨log, ⟨l, here, words⟩, rfl⟩
    have rests := relays.steady.attended i l here List.not_mem_nil
    rcases (c.lastWords_onLane rests).mp words with
      ⟨runs, ⟨dropped, pushes, rfl⟩ | ⟨closes, rfl⟩⟩
    · rw [reader_of_offers steady.alive goesOn steady.sized pushes] at dropped
      exact .mergedDropped (relays.name here) ⟨l, here, runs⟩ pushes dropped
    · exact .sourceClosed (relays.name here) ⟨l, here, runs⟩ closes
  · intro stops
    suffices ∃ (log : Log) (l : Lane kind.Message), s.lane? kind i = some l ∧ (l.isRunning = true ∧
        (((s.act c).1.stream kind).reader = .dropped ∧ c.offers kind i ≠ [] ∧
            log = .mergedDropped kind l.name ∨
          c.closes kind i = true ∧ log = .sourceClosed kind l.name)) ∧ log.line wording = line by
      obtain ⟨log, l, here, words, same⟩ := this
      have rests := relays.steady.attended i l here List.not_mem_nil
      exact ⟨log, ⟨l, here, (c.lastWords_onLane rests).mpr words⟩, same⟩
    cases stops with
    | sourceClosed named runs closes =>
      obtain ⟨l, here, runs⟩ := runs
      cases named.symm.trans (relays.name here)
      exact ⟨_, l, here, ⟨runs, .inr ⟨closes, rfl⟩⟩, rfl⟩
    | mergedDropped named runs pushes dropped =>
      obtain ⟨l, here, runs⟩ := runs
      cases named.symm.trans (relays.name here)
      rw [← reader_of_offers steady.alive goesOn steady.sized pushes] at dropped
      exact ⟨_, l, here, ⟨runs, .inl ⟨dropped, pushes, rfl⟩⟩, rfl⟩

theorem step (relays : s.Relays names kind) (goesOn : c.tearsDown = false) :
    (s.step c).1.Relays names kind ∧ ∀ i, (s.step c).1.Forwards kind i ↔
      s.Forwards kind i ∧ i ∉ ((s.act c).1.stream kind).halts.map Prod.fst := by
  have early := relays.steady.early (s.stream kind).woken
  have acted := early.act goesOn
  obtain ⟨steady, settled⟩ := acted.settle
  have lanes (i : Nat) : (s.step c).1.lane? kind i = (s.lane? kind i).map fun l =>
      (c.onLane kind i l).forward ((s.act c).1.stream kind).reader := by
    refine (settled i).trans ?_
    rw [early.lane_act goesOn, Option.map_map]
    rfl
  obtain ⟨same, distinct⟩ := relays.acted goesOn
  refine ⟨⟨steady, ?_, ?_, ?_⟩, fun i => ?_⟩
  · exact (congrArg FanIn.woken (stream_settle _)).trans (FanIn.woken_settle _)
  · exact (congrArg FanIn.kind (stream_settle _)).trans ((FanIn.kind_forwardAll ..).trans same)
  · rw [← relays.named]
    refine List.ext_getElem? fun i => ?_
    rw [List.getElem?_map, List.getElem?_map]
    refine (congrArg _ (lanes i)).trans ?_
    rw [Option.map_map]
    refine Option.map_congr fun l _ => ?_
    exact (Lane.name_forward ..).trans (c.name_onLane l)
  · -- a forwarder that runs on is one that writes no last record
    have halted : i ∈ ((s.act c).1.stream kind).halts.map Prod.fst ↔ ∃ log l,
        s.lane? kind i = some l ∧ (c.onLane kind i l).lastWords kind
          ((s.act c).1.stream kind).reader = some log := by
      simp only [List.mem_map, Prod.exists, exists_and_right, exists_eq_right,
        relays.mem_halts goesOn]
    rw [halted]
    constructor
    · rintro ⟨_, here', runs⟩
      obtain ⟨l, here, rfl⟩ := Option.map_eq_some_iff.mp ((lanes i).symm.trans here')
      obtain ⟨running, silent⟩ := (Lane.isRunning_forward_iff _ kind _).mp runs
      rw [c.isRunning_onLane] at running
      refine ⟨⟨l, here, running⟩, fun ⟨log, _, same, words⟩ => ?_⟩
      cases same.symm.trans here
      cases silent.symm.trans words
    · rintro ⟨⟨l, here, running⟩, silent⟩
      refine ⟨_, (lanes i).trans (congrArg _ here), ?_⟩
      refine (Lane.isRunning_forward_iff _ kind _).mpr ⟨(c.isRunning_onLane l).trans running, ?_⟩
      exact Option.eq_none_iff_forall_ne_some.mpr fun log words => silent ⟨log, l, here, words⟩

theorem logs_step (relays : ∀ kind, s.Relays names kind) (goesOn : c.tearsDown = false)
    (kind : StreamKind) : (logs (s.step c).2.2).filter (Log.isStop kind) =
      ((s.act c).1.stream kind).halts.map Prod.snd := by
  have calls : (logs (s.act c).1.calls.settle.2).filter (Log.isStop kind) = [] := by
    refine List.filter_eq_nil_iff.mpr fun log member stops => ?_
    have other := (CallSide.settle_runs _).not_ofForwarder log member
    exact Bool.false_ne_true (other.symm.trans (Log.isOfForwarder_of_isStop stops))
  have own (k : StreamKind) : ((s.act c).1.stream k).settle.2.filter (Log.isStop kind) =
      if k = kind then ((s.act c).1.stream kind).halts.map Prod.snd else [] := by
    obtain ⟨same, distinct⟩ := (relays k).acted goesOn
    have all : ∀ log ∈ ((s.act c).1.stream k).settle.2, log.isStop k = true := by
      intro log member
      have stops := FanIn.isStop_settle _ log member
      rwa [same] at stops
    split
    · rename_i here
      subst here
      rw [← FanIn.logs_settle distinct]
      exact List.filter_eq_self.mpr all
    · rename_i other
      refine List.filter_eq_nil_iff.mpr fun log member stops => other ?_
      exact Log.kind_of_isStop (all log member) stops
  rw [Session.logs_step goesOn, List.filter_append, List.filter_append, calls, List.nil_append]
  refine (congrArg₂ _ (own .notifications) (own .requests)).trans ?_
  cases kind <;> simp

theorem ofNames (names : List String) (settings : Settings) (kind : StreamKind) :
    (ofNames names settings).Relays names kind := by
  refine ⟨(steady_ofBackends kind _ settings).1, ?_, ?_, ?_⟩
  · cases kind <;> rfl
  · cases kind <;> rfl
  · cases kind <;> simp [Session.ofNames, ofBackends, stream, FanIn.ofNames, Function.comp_def,
      Backend.ofName]

end Relays

theorem filter_forwarding_startLogs (names : List String) (settings : Settings)
    (kind : StreamKind) : (ofNames names settings).startLogs.filter
      (Log.isForwarding kind) = names.map (.forwarding kind) := by
  have one (name : String) : [Log.forwarding .notifications name, .forwarding .requests name].filter
      (Log.isForwarding kind) = [.forwarding kind name] := by
    cases kind <;> rfl
  have all : (ofNames names settings).startLogs.filter (Log.isForwarding kind) =
      names.flatMap fun name => [.forwarding kind name] := by
    simp only [Session.ofNames, ofBackends, startLogs, List.flatMap_map, Backend.ofName,
      List.filter_flatMap, one, List.filter_cons_of_neg (p := Log.isForwarding kind)
        (a := .multiplexing _) Bool.false_ne_true]
  rw [all]
  exact List.map_eq_flatMap.symm

theorem filter_forwarding_step (goesOn : c.tearsDown = false) (kind : StreamKind) :
    (logs (s.step c).2.2).filter (Log.isForwarding kind) = [] := by
  have own {α : Type} (f : FanIn α) :
      ∀ log ∈ f.settle.2, log.isForwarding kind = false := fun log member =>
    Log.isForwarding_of_isStop (f.isStop_settle log member)
  refine List.filter_eq_nil_iff.mpr fun log member => Bool.eq_false_iff.mp ?_
  rw [Session.logs_step goesOn] at member
  rcases List.mem_append.mp member with calls | forwarders
  · exact Log.isForwarding_of_not_isOfForwarder
      ((CallSide.settle_runs _).not_ofForwarder log calls)
  · exact (List.mem_append.mp forwarders).elim (own _ log) (own _ log)

def Halted (names : List String) (settings : Settings) (kind : StreamKind)
    (commands : List Command) (i : Nat) (line : LogLine) : Prop :=
  ∃ before c after, commands = before ++ c :: after ∧
    Stops names kind ((ofNames names settings).run before) c i line

/-- The records of the forwarders of a kind: all write one at the start, and those that have ended
    one more, which says what has ended them. -/
structure ForwarderRecords (names : List String) (settings : Settings) (kind : StreamKind)
    (commands : List Command) (records : List LogLine) (halts : List (Nat × LogLine)) : Prop where
  starts : records.filter (LogLine.isForwarding kind) = names.map fun name =>
    ⟨"DEBUG", "lspx::forward", "Forwarding " ++ kind.text ++ " from '" ++ name ++ "'"⟩
  stops : records.filter (LogLine.isStop kind) = halts.map Prod.snd
  once : (halts.map Prod.fst).Nodup
  reasons : ∀ i line, (i, line) ∈ halts ↔ Halted names settings kind commands i line
  runs : ∀ i, ((ofNames names settings).run commands).Forwards kind i ↔
    i < names.length ∧ i ∉ halts.map Prod.fst

theorem reached_relays (goesOn : ∀ c ∈ commands, c.tearsDown = false) (kind : StreamKind) :
    ((ofNames names settings).run commands).Relays names kind := by
  induction commands using List.reverseRecOn with
  | nil => exact Relays.ofNames names settings kind
  | append_singleton commands c ih =>
    obtain ⟨before, last⟩ := List.forall_mem_append.mp goesOn
    rw [run_append]
    exact ((ih before).step (last c List.mem_cons_self)).1

namespace ForwarderRecords

theorem start (names : List String) (settings : Settings) (kind : StreamKind) :
    ForwarderRecords names settings kind []
      (((ofNames names settings).log []).map (Log.line wording)) [] where
  starts := by
    rw [Log.filter_lines wording (Log.isForwarding_line wording · kind), log, effects, logs_nil,
      List.append_nil, filter_forwarding_startLogs names settings kind, List.map_map]
    rfl
  stops := by
    rw [Log.filter_lines wording (Log.isStop_line wording · kind), log, effects, logs_nil,
      List.append_nil, filter_startLogs (fun _ => rfl) (fun _ _ => rfl)]
    rfl
  once := .nil
  reasons i log := by
    refine iff_of_false List.not_mem_nil ?_
    rintro ⟨before, c, after, split, -⟩
    cases before <;> cases split
  runs i := by
    obtain ⟨steady, new⟩ := steady_ofBackends kind (names.map Backend.ofName) settings
    have size : (names.map Backend.ofName).length = names.length := List.length_map _
    constructor
    · rintro ⟨lane, here, -⟩
      exact ⟨size ▸ steady.bound here, List.not_mem_nil⟩
    · rintro ⟨bound, -⟩
      obtain ⟨lane, here⟩ := steady.lane (i := i) (size.symm ▸ bound)
      exact ⟨lane, here, (new i lane here).2.1⟩

variable {halts : List (Nat × LogLine)}

theorem snoc (goesOn : ∀ c ∈ commands, c.tearsDown = false) (goes : c.tearsDown = false)
    (told : ForwarderRecords names settings kind commands
      (((ofNames names settings).log commands).map (Log.line wording)) halts) :
    ForwarderRecords names settings kind (commands ++ [c])
      (((ofNames names settings).log (commands ++ [c])).map (Log.line wording))
      (halts ++
        ((((ofNames names settings).run commands).act c).1.stream kind).haltLines wording) := by
  have relays (k : StreamKind) : ((ofNames names settings).run commands).Relays names k :=
    reached_relays goesOn k
  have whole : ((ofNames names settings).log (commands ++ [c])).map (Log.line wording) =
      ((ofNames names settings).log commands).map (Log.line wording) ++
        (logs (((ofNames names settings).run commands).step c).2.2).map (Log.line wording) := by
    rw [log, log, effects_snoc, logs_append, ← List.append_assoc, List.map_append]
  constructor
  · rw [whole, List.filter_append, told.starts,
      Log.filter_lines wording (Log.isForwarding_line wording · kind), filter_forwarding_step goes,
      List.map_nil, List.append_nil]
  · rw [whole, List.filter_append, told.stops,
      Log.filter_lines wording (Log.isStop_line wording · kind), Relays.logs_step relays goes,
      List.map_append, FanIn.snd_haltLines]
  · rw [List.map_append]
    have distinct := FanIn.halts_nodup ((relays kind).acted goes).2
    rw [FanIn.fst_haltLines]
    refine List.nodup_append.mpr ⟨told.once, distinct, fun i old i' new same => ?_⟩
    -- a forwarder that has ended does not end again
    subst same
    rw [← FanIn.fst_haltLines wording] at new
    obtain ⟨⟨_, line⟩, member, rfl⟩ := List.mem_map.mp new
    have forwards := ((relays kind).mem_haltLines_iff wording goes).mp member |>.forwards
    exact ((told.runs _).mp forwards).2 old
  · intro i line
    rw [List.mem_append, told.reasons, (relays kind).mem_haltLines_iff wording goes]
    exact exists_split_snoc.symm
  · intro i
    rw [run_append, List.map_append, List.mem_append, not_or, ← and_assoc, ← told.runs,
      FanIn.fst_haltLines]
    exact ((relays kind).step goes).2 i

end ForwarderRecords

theorem run_forwarders (goesOn : ∀ c ∈ commands, c.tearsDown = false) (kind : StreamKind) :
    ∃ halts, ForwarderRecords names settings kind commands
      (((ofNames names settings).log commands).map (Log.line wording)) halts := by
  induction commands using List.reverseRecOn with
  | nil => exact ⟨[], .start wording names settings kind⟩
  | append_singleton commands c ih =>
    obtain ⟨before, last⟩ := List.forall_mem_append.mp goesOn
    obtain ⟨halts, told⟩ := ih before
    exact ⟨_, told.snoc wording before (last c List.mem_cons_self)⟩

end Session

end Switchboard.Mux
