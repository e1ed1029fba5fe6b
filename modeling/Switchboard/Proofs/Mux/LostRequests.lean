import Switchboard.Proofs.Mux.LogLines
import Switchboard.Proofs.Mux.Verdicts

namespace Switchboard.Mux

/-- A command leaves a request without an answer while its caller waits for it: a peer drops its
    responder, or closes the channel with the request still in the queue. -/
structure Loses (s : Session) (c : Command) (ref : RequestRef) : Prop where
  waits : ref ∈ s.calls.awaited
  drops : (ref, .dropped) ∈ s.replies c ∨
    (∃ method params, .request ref.call method params ∈ s.calls.queueAt ref.backend) ∧
      (s.step c).1.calls.isOpen ref.backend = false

def dropLog (names : List String) (index : Nat) (method : String) : Log :=
  .requestDropped (names[index]?.getD "") method

namespace Attempt

theorem ok_of_join : ∀ {finished : List (Nat × Reply)} {results joined : List (Option Json)},
    join finished results = .ok joined → ∀ r ∈ finished, ∃ v, r.2 = .ok v
  | [], _, _, _ => nofun
  | (i, reply) :: rest, results, joined, ok => by
    cases reply with
    | ok v =>
      rw [join] at ok
      exact List.forall_mem_cons.mpr ⟨⟨v, rfl⟩, ok_of_join ok⟩
    | _ => cases ok

def dropped (names : List String) (a : Attempt) : List (RequestRef × Log) :=
  (a.finished.filter fun r => r.2.isDropped).map fun r =>
    (⟨a.call, r.1⟩, dropLog names r.1 handshakeMethod)

theorem dropped_of_all {a : Attempt} (names : List String)
    (all : ∀ r ∈ a.finished, r.2.isDropped = false) : a.dropped names = [] := by
  rw [dropped, List.filter_eq_nil_iff.mpr fun r member => Bool.eq_false_iff.mp (all r member)]
  rfl

theorem dropped_of_stage {a : Attempt} (names : List String)
    (unfailed : ∀ i reply, a.stage ≠ .failed i reply) : a.dropped names = [] := by
  refine dropped_of_all names fun r member => ?_
  unfold stage at unfailed
  cases joined : join a.finished a.results with
  | error failure =>
    rw [joined] at unfailed
    exact absurd rfl (unfailed _ _)
  | ok results =>
    obtain ⟨v, same⟩ := ok_of_join joined r member
    rw [same]
    rfl

end Attempt

namespace CallSide

/-- The requests that have been dropped and whose callers have not gone on since, each with its
    record. -/
def dropped (names : List String) (s : CallSide) : List (RequestRef × Log) :=
  s.attempt.elim [] (Attempt.dropped names) ++
    (s.routed.filter fun r => r.reply.any Reply.isDropped).map fun r =>
      (⟨r.call, 0⟩, dropLog names 0 r.method)

/-- The requests that are no longer dropped have their records among these effects, and their calls
    have ended. -/
def Drops (names : List String) (s s' : CallSide) (es : List Effect) : Prop :=
  ∃ now : List (RequestRef × Log), (logs es).filter Log.isRequestDropped = now.map Prod.snd ∧
    (s.dropped names).Perm (now ++ s'.dropped names) ∧
    ∀ d ∈ now, ∃ outcome, (d.1.call, outcome) ∈ endings es

variable {names : List String} {s s' s'' : CallSide} {es es' : List Effect}

theorem Drops.silent (none : (logs es).filter Log.isRequestDropped = [])
    (same : s'.dropped names = s.dropped names) : Drops names s s' es :=
  ⟨[], none, by rw [same]; exact .refl _, nofun⟩

theorem Drops.trans (first : Drops names s s' es) (second : Drops names s' s'' es') :
    Drops names s s'' (es ++ es') := by
  obtain ⟨now, logged, perm, ended⟩ := first
  obtain ⟨now', logged', perm', ended'⟩ := second
  refine ⟨now ++ now', by simp [logged, logged'], ?_, fun d member => ?_⟩
  · rw [List.append_assoc]
    exact perm.trans (perm'.append_left now)
  · rw [endings_append]
    rcases List.mem_append.mp member with before | after
    · exact (ended d before).imp fun _ => List.mem_append_left _
    · exact (ended' d after).imp fun _ => List.mem_append_right _

theorem dropLog_of_named (named : s.backends.map Backend.name = names) (index : Nat)
    (method : String) :
    Log.requestDropped (s.nameOf index) method = dropLog names index method := by
  rw [dropLog, nameOf, ← named, List.getElem?_map]

theorem advance_drops (named : s.backends.map Backend.name = names) {a : Attempt}
    (held : s.attempt = some a) : Drops names s (s.advance a).1 (s.advance a).2 := by
  unfold advance
  split
  · rename_i stage
    refine .silent rfl ?_
    rw [dropped, dropped, held, Option.elim_some, Option.elim_some,
      Attempt.dropped_of_stage names (a := a) (by simp [stage])]
    rfl
  · rename_i stage
    refine .silent ?_ ?_
    · rw [logs_publish, List.filter_append, filter_eq_nil_of (Phase.isOfHandshake_warned _)
        fun _ => Log.isRequestDropped_of_isOfHandshake]
      rfl
    · rw [dropped, dropped, held, Option.elim_some,
        Attempt.dropped_of_stage names (a := a) (by simp [stage])]
      rfl
  · rename_i i reply stage
    refine ⟨a.dropped names, ?_, ?_, fun d member => ?_⟩
    · have failed : (if reply.isPanicked then []
          else [Log.handshakeFailed (s.nameOf i) (s.errorOf i reply)]).filter
            Log.isRequestDropped = [] := by split <;> rfl
      rw [logs_failAttempt, List.filter_append, failed, List.append_nil, Attempt.dropped,
        List.map_map, List.filter_eq_self.mpr (List.forall_mem_map.mpr fun _ _ => rfl)]
      exact List.map_congr_left fun r _ => dropLog_of_named named r.1 handshakeMethod
    · rw [dropped, held]
      exact .refl _
    · obtain ⟨r, -, rfl⟩ := List.mem_map.mp member
      rw [endings_failAttempt]
      exact ⟨_, List.mem_cons_self⟩

theorem Happens.drops (channels : ∀ b ∈ s.backends, b.IsChannel)
    (named : s.backends.map Backend.name = names) (happens : s.Happens s' es) :
    Drops names s s' es := by
  have plainly {es : List Effect} (plain : ∀ e ∈ es, e.isPlain = true) :
      (logs es).filter Log.isRequestDropped = [] :=
    filter_eq_nil_of (logs_of_plain plain) fun _ => Log.isRequestDropped_of_isAboutNotifications
  -- over channels the requests of an attempt wait or fail at once; none of them is dropped yet
  have begun {call : Nat} {params : Json} :
      ∀ r ∈ (s.begun call params).finished, r.2.isDropped = false := fun r member => by
    obtain ⟨b, -, -, same⟩ := (mem_begun_finished_of_channels channels).mp member
    rw [same]
    rfl
  have opened {call : Nat} {params : Json} {waiting : List (Nat × Json)}
      {fresh : List (Nat × Ask)} (free : s.attempt = none) :
      Drops names s { s.opened call params with waiting, fresh }
        (fanOutEffects s.backends params) := by
    refine .silent ?_ ?_
    · rw [logs_fanOutEffects]
      rfl
    · rw [dropped, dropped, free, opened_eq, Option.elim_some, Attempt.dropped_of_all names begun]
      rfl
  cases happens with
  | watches | watched | queues | refuses => exact .silent rfl rfl
  | concludes _ _ _ _ plain =>
    refine .silent ?_ rfl
    rw [logs_append, List.filter_append, plainly plain]
    rfl
  | stalls _ _ plain => exact .silent (plainly plain) rfl
  | @routes call method params rest b others fresh other some =>
    have channel := channels b (some ▸ List.mem_cons_self)
    refine .silent rfl ?_
    have undropped : ((b.request call method params).2.any Reply.isDropped) = false := by
      rw [(channel.request_eq call method params).1]
      split <;> rfl
    simp only [dropped, List.filter_append, List.filter_cons, List.filter_nil, undropped,
      Bool.false_eq_true, if_false, List.append_nil]
  | opens _ _ _ free => exact opened free
  | turns _ _ free => exact opened free
  | advances held => exact advance_drops named held
  | ends =>
    refine ⟨(s.routed.filter fun r => r.reply.any Reply.isDropped).map fun r =>
      (⟨r.call, 0⟩, dropLog names 0 r.method), ?_, ?_, fun d member => ?_⟩
    · rw [logs_endRouted, List.map_map,
        List.filter_eq_self.mpr (List.forall_mem_map.mpr fun _ _ => rfl)]
      exact List.map_congr_left fun r _ => dropLog_of_named named 0 r.method
    · have rest : s.endRouted.1.routed.filter (fun r => r.reply.any Reply.isDropped) = [] := by
        refine List.filter_eq_nil_iff.mpr fun r member => ?_
        rw [endRouted_quiet s r member]
        exact Bool.false_ne_true
      rw [dropped, dropped, rest, List.map_nil, List.append_nil]
      exact List.perm_append_comm
    · obtain ⟨r, chosen, rfl⟩ := List.mem_map.mp member
      obtain ⟨routed, replied⟩ := List.mem_filter.mp chosen
      obtain ⟨reply, here, -⟩ := (Option.any_eq_true ..).mp replied
      rw [endings_endRouted]
      exact ⟨s.routedOutcome reply, List.mem_filterMap.mpr ⟨r, routed, by rw [here]; rfl⟩⟩

theorem Runs.drops (channels : ∀ b ∈ s.backends, b.IsChannel)
    (named : s.backends.map Backend.name = names) (runs : s.Runs s' es) :
    Drops names s s' es ∧ Kept s.backends s'.backends := by
  induction runs with
  | rest => exact ⟨.silent rfl rfl, .refl _⟩
  | more _ next ih =>
    obtain ⟨drops, kept⟩ := ih
    have later := next.drops (kept.channels channels) (kept.names.trans named)
    exact ⟨drops.trans later, kept.trans next.kept⟩

theorem mem_dropped {d : RequestRef × Log} : d ∈ s.dropped names ↔
    (∃ a, s.attempt = some a ∧ ∃ i, (i, .dropped) ∈ a.finished ∧
      d = (⟨a.call, i⟩, dropLog names i handshakeMethod)) ∨
    ∃ r ∈ s.routed, r.reply = some .dropped ∧ d = (⟨r.call, 0⟩, dropLog names 0 r.method) := by
  have isDropped {reply : Reply} : reply.isDropped = true ↔ reply = .dropped := by
    cases reply <;> simp [Reply.isDropped]
  have anyDropped {reply : Option Reply} :
      reply.any Reply.isDropped = true ↔ reply = some .dropped := by
    cases reply <;> simp [isDropped]
  rw [dropped, List.mem_append]
  refine or_congr ?_ ?_
  · cases s.attempt with
    | none => simp
    | some a => simp [Attempt.dropped, isDropped, eq_comm]
  · simp only [List.mem_map, List.mem_filter, anyDropped, and_assoc, @eq_comm _ d]

theorem Quiet.dropped (quiet : s.Quiet) : s.dropped names = [] := by
  refine List.eq_nil_iff_forall_not_mem.mpr fun d member => ?_
  rcases mem_dropped.mp member with ⟨a, held, i, finished, -⟩ | ⟨r, routed, replied, -⟩
  · rw [(quiet.attempt a held).1] at finished
    cases finished
  · rw [quiet.routed r routed] at replied
    cases replied

theorem Sound.dropped_nodup (sound : s.Sound) : ((s.dropped names).map Prod.fst).Nodup := by
  rw [dropped, List.map_append]
  refine List.nodup_append.mpr ⟨?_, ?_, fun ref held r routes same => ?_⟩
  · cases held : s.attempt with
    | none => exact List.nodup_nil
    | some a =>
      have distinct := (sound.attempt_wellFormed a held).finished_nodup
      have injective : Function.Injective fun i : Nat => (⟨a.call, i⟩ : RequestRef) :=
        fun i j same => (RequestRef.mk.inj same).2
      have fewer := distinct.sublist
        (List.filter_sublist (p := fun r => r.2.isDropped).map Prod.fst)
      have all := fewer.map injective
      rw [Option.elim_some, Attempt.dropped, List.map_map]
      rwa [List.map_map] at all
  · have injective : Function.Injective fun call : Nat => (⟨call, 0⟩ : RequestRef) :=
      fun c d same => (RequestRef.mk.inj same).1
    have fewer := sound.routed_nodup.sublist
      (List.filter_sublist (p := fun r => r.reply.any Reply.isDropped).map Routed.call)
    have all := fewer.map injective
    rw [List.map_map]
    rwa [List.map_map] at all
  · cases turn : s.attempt with
    | none =>
      rw [turn] at held
      cases held
    | some a =>
      -- no request is routed while a handshake is under way
      have uninitialized := (sound.turns (.inl (by simp [turn]))).1
      rw [sound.unrouted uninitialized] at routes
      cases routes

variable {d : Ledger}

theorem Moved.routed_old (moved : s.Moved s' d) {r' : Routed} (member : r' ∈ s'.routed) :
    ∃ r ∈ s.routed, r.call = r'.call ∧ r.method = r'.method := by
  cases moved with
  | cancelled => exact ⟨r', List.mem_of_mem_filter member, rfl, rfl⟩
  | answered | closed =>
    obtain ⟨r, routed, rfl⟩ := List.mem_map.mp member
    have same := Routed.hearAll_call r
    exact ⟨r, routed, (same ..).1.symm, (same ..).2.symm⟩
  | tornDown => cases member
  | _ => exact ⟨r', member, rfl, rfl⟩

theorem Moved.mem_dropped (sound : s.Sound) (quiet : s.Quiet) (moved : s.Moved s' d)
    (ref : RequestRef) :
    ref ∈ (s'.dropped names).map Prod.fst ↔ ref ∈ s.awaited ∧ Gets s s' d ref .dropped := by
  have sound' := sound.moved moved
  constructor
  · intro member
    obtain ⟨⟨_, log⟩, here, rfl⟩ := List.mem_map.mp member
    rcases CallSide.mem_dropped.mp here with
      ⟨a', held', i, finished, same⟩ | ⟨r', routed', replied, same⟩
    · cases same
      obtain ⟨a, held, ours⟩ := Option.map_eq_some_iff.mp (moved.turn_old (by rw [held']; rfl))
      rcases moved.hears sound held with
        ⟨-, gone, -⟩ | ⟨-, ⟨same, -⟩ | ⟨j, reply, running, arrived, gets⟩⟩
      · exact absurd (ours ▸ mem_unfinished_of_attempt held') gone
      · cases same.symm.trans held'
        rw [(quiet.attempt _ held).1] at finished
        cases finished
      · cases arrived.symm.trans held'
        rw [show (a.arrive j reply).finished = _ from congrArg (· ++ _) (quiet.attempt a held).1,
          List.nil_append, List.mem_singleton] at finished
        cases finished
        exact ⟨mem_awaited_of_running held running, (gets _ _).mpr ⟨rfl, rfl⟩⟩
    · cases same
      obtain ⟨r, routed, call, -⟩ := moved.routed_old routed'
      rcases moved.gets sound quiet routed with ⟨-, gone, -⟩ | ⟨-, r'', routed'', same, gets⟩
      · exact absurd (call ▸ mem_unfinished_of_routed routed') gone
      · have one : r'' = r' :=
          List.inj_on_of_nodup_map sound'.routed_nodup routed'' routed' (same.trans call)
        rw [← call]
        exact ⟨mem_awaited_of_routed routed (quiet.routed r routed), (gets _).mp (one ▸ replied)⟩
  · rintro ⟨waits, dropped⟩
    suffices ∃ log, (ref, log) ∈ s'.dropped names from
      this.elim fun log member => List.mem_map.mpr ⟨_, member, rfl⟩
    rcases sound.awaited_cases waits with ⟨a, held, awaits, -⟩ | ⟨r, routed, rfl⟩
    · obtain ⟨call, i⟩ := ref
      obtain ⟨rfl, -⟩ := Attempt.awaits_iff.mp awaits
      rcases moved.hears sound held with
        ⟨-, -, unheard⟩ | ⟨-, ⟨-, unheard⟩ | ⟨j, reply, -, arrived, gets⟩⟩
      · exact absurd dropped (unheard _ _)
      · exact absurd dropped (unheard _ _)
      · obtain ⟨rfl, rfl⟩ := (gets i _).mp dropped
        exact ⟨_, CallSide.mem_dropped.mpr (.inl ⟨_, arrived, i,
          List.mem_append_right _ List.mem_cons_self, rfl⟩)⟩
    · rcases moved.gets sound quiet routed with ⟨-, -, unheard⟩ | ⟨-, r', routed', same, gets⟩
      · exact absurd dropped (unheard _)
      · exact ⟨_, CallSide.mem_dropped.mpr (.inr ⟨r', routed', (gets _).mpr dropped, by rw [same]⟩)⟩

end CallSide

namespace Session

variable {s : Session} {c : Command} {names : List String} {settings : Settings}
  {commands : List Command} (wording : Json → String)

theorem loses_iff {issued : List (Nat × Ask)} (sound : s.calls.Sound) (quiet : s.calls.Quiet)
    (asked : Asked issued s.calls) (ref : RequestRef) :
    Loses s c ref ↔ ref ∈ s.calls.awaited ∧
      s.calls.Gets (s.act c).1.calls (s.notedAtOnce c) ref .dropped := by
  have isOpen : (s.step c).1.calls.isOpen ref.backend = (s.act c).1.calls.isOpen ref.backend :=
    isOpen_step sound quiet asked c ref.backend
  constructor
  · rintro ⟨waits, own | ⟨⟨method, params, queued⟩, shut⟩⟩
    · exact ⟨waits, .own own⟩
    · exact ⟨waits, .lost queued (isOpen.symm.trans shut)⟩
  · rintro ⟨waits, gets⟩
    cases gets with
    | own answered => exact ⟨waits, .inl answered⟩
    | lost queued shut => exact ⟨waits, .inr ⟨⟨_, _, queued⟩, isOpen.trans shut⟩⟩

/-- The record of a drop names the backend and the method of the request. -/
def Tells (names : List String) (issued : List (Nat × Ask)) (d : RequestRef × LogLine) : Prop :=
  ∃ name method params, names[d.1.backend]? = some name ∧
    (d.1.call, .request method params) ∈ issued ∧
    d.2 = ⟨"WARN", "lspx::backend",
      "Backend '" ++ name ++ "' dropped request '" ++ method ++ "' without answering"⟩

theorem tells_of_dropped {calls : CallSide} {issued : List (Nat × Ask)} (asked : Asked issued calls)
    {d : RequestRef × Log} (member : d ∈ calls.dropped names)
    (bound : d.1.backend < names.length) : Tells names issued (d.1, d.2.line wording) := by
  have named := List.getElem?_eq_getElem bound
  rcases CallSide.mem_dropped.mp member with ⟨a, held, i, -, rfl⟩ | ⟨r, routed, -, rfl⟩
  · obtain ⟨params, issued⟩ := asked.attempt a held
    exact ⟨_, _, params, named, issued, by rw [dropLog, named]; rfl⟩
  · obtain ⟨-, params, issued⟩ := asked.routed r routed
    exact ⟨_, _, params, named, issued, by rw [dropLog, named]; rfl⟩

theorem step_drops {issued : List (Nat × Ask)} (sound : s.calls.Sound) (quiet : s.calls.Quiet)
    (asked : Asked issued s.calls) (named : s.calls.backends.map Backend.name = names)
    (goesOn : c.tearsDown = false) :
    ∃ now : List (RequestRef × LogLine),
      (lines wording (s.step c).2.2).filter LogLine.isRequestDropped = now.map Prod.snd ∧
      (now.map Prod.fst).Nodup ∧ (∀ ref, ref ∈ now.map Prod.fst ↔ Loses s c ref) ∧
      ∀ d ∈ now, Tells names (issued ++ (s.notedAtOnce c).issued) d ∧
        ∃ outcome, (d.1.call, outcome) ∈ endings (s.step c).2.2 := by
  have moved := act_moved s c
  have sound' := sound.moved moved
  obtain ⟨⟨now, logged, perm, ended⟩, -⟩ := (CallSide.settle_runs (s.act c).1.calls).drops
    sound'.channels ((moved.keeps sound).names.trans named)
  rw [(CallSide.settle_quiet _).dropped, List.append_nil] at perm
  have lost (ref : RequestRef) : ref ∈ now.map Prod.fst ↔ Loses s c ref := by
    rw [loses_iff sound quiet asked, ← moved.mem_dropped sound quiet]
    exact (perm.map Prod.fst).mem_iff.symm
  have refs : (now.map fun d => (d.1, d.2.line wording)).map Prod.fst = now.map Prod.fst := by
    rw [List.map_map]
    rfl
  refine ⟨now.map fun d => (d.1, d.2.line wording), ?_, ?_, fun ref => ?_,
    List.forall_mem_map.mpr fun d member => ⟨?_, ?_⟩⟩
  · rw [lines, Log.filter_lines wording (Log.isRequestDropped_line wording),
      filter_logs_step goesOn fun _ => Log.isRequestDropped_of_isOfForwarder, logged, List.map_map,
      List.map_map]
    rfl
  · rw [refs]
    exact (perm.map Prod.fst).nodup_iff.mp sound'.dropped_nodup
  · rw [refs]
    exact lost ref
  · have waits := ((lost d.1).mp (List.mem_map_of_mem member)).waits
    obtain ⟨some, -⟩ := sound.of_awaits (CallSide.mem_awaited.mp waits)
    have bound := (sound.requested _ some).2.2
    rw [← List.length_map Backend.name, named] at bound
    exact tells_of_dropped wording (asked.moved moved) (perm.mem_iff.mpr member) bound
  · rw [endings_step]
    exact (ended d member).imp fun _ => List.mem_append_right _

def Lost (names : List String) (settings : Settings) (commands : List Command) (ref : RequestRef) :
    Prop :=
  ∃ before c after, commands = before ++ c :: after ∧
    Loses ((ofNames names settings).run before) c ref

theorem lost_snoc {ref : RequestRef} : Lost names settings (commands ++ [c]) ref ↔
    Lost names settings commands ref ∨ Loses ((ofNames names settings).run commands) c ref :=
  exists_split_snoc

/-- The records of drops in a run are those of the requests that are lost, each of which has one. -/
structure DropRecords (names : List String) (settings : Settings) (commands : List Command)
    (records : List LogLine) (drops : List (RequestRef × LogLine)) : Prop where
  records : records = drops.map Prod.snd
  once : (drops.map Prod.fst).Nodup
  lost : ∀ ref, ref ∈ drops.map Prod.fst ↔ Lost names settings commands ref
  tells : ∀ d ∈ drops, Tells names (record names settings commands).issued d

theorem run_drops (goesOn : ∀ c ∈ commands, c.tearsDown = false) :
    ∃ drops, DropRecords names settings commands
      ((lines wording ((ofNames names settings).effects commands)).filter
        LogLine.isRequestDropped) drops ∧
      ∀ d ∈ drops, ∃ outcome, (d.1.call, outcome) ∈ (record names settings commands).ended := by
  induction commands using List.reverseRecOn with
  | nil =>
    refine ⟨[], ⟨rfl, .nil, fun ref => ?_, nofun⟩, nofun⟩
    refine iff_of_false List.not_mem_nil ?_
    rintro ⟨before, c, after, split, -⟩
    cases before <;> cases split
  | append_singleton commands c ih =>
    obtain ⟨before, last⟩ := List.forall_mem_append.mp goesOn
    obtain ⟨drops, ⟨records, once, lost, tells⟩, ended⟩ := ih before
    obtain ⟨sound, quiet⟩ := reached_sound names settings commands
    obtain ⟨recorded, -⟩ := reached_recorded names settings commands
    obtain ⟨now, logged, distinct, loses, told⟩ := step_drops (c := c) wording sound quiet
      recorded.accounts.asked (reached_names names settings commands) (last c List.mem_cons_self)
    refine ⟨drops ++ now, ⟨?_, ?_, fun ref => ?_, fun d member => ?_⟩, fun d member => ?_⟩
    · rw [effects_snoc, lines_append, List.filter_append, records, logged, List.map_append]
    · rw [List.map_append]
      refine List.nodup_append.mpr ⟨once, distinct, fun ref old ref' new same => ?_⟩
      subst same
      -- a request that was lost has ended its call, so that nobody waits for it again
      obtain ⟨d, member, rfl⟩ := List.mem_map.mp old
      obtain ⟨outcome, gone⟩ := ended d member
      have waits := CallSide.mem_awaited.mp ((loses d.1).mp new).waits
      exact recorded.not_mem_of_ended gone (sound.of_awaits waits).2
    · rw [List.map_append, List.mem_append, lost, loses, lost_snoc]
    · rw [issued_snoc]
      rcases List.mem_append.mp member with old | new
      · obtain ⟨name, method, params, here, asked, same⟩ := tells d old
        exact ⟨name, method, params, here, List.mem_append_left _ asked, same⟩
      · exact (told d new).1
    · rw [ended_snoc]
      rcases List.mem_append.mp member with old | new
      · exact (ended d old).imp fun _ => List.mem_append_left _
      · exact (told d new).2.imp fun _ => List.mem_append_right _

end Session

end Switchboard.Mux
