import Switchboard.Proofs.Mux.Happenings
import Switchboard.Proofs.Mux.SingleHandshake

namespace Switchboard

namespace Capabilities

/-- The capability set that a handshake result gives: its member `capabilities`, as it is read. -/
def Gives (result set : Json) : Prop :=
  ∃ members raw, result = .obj members ∧ members.lookup "capabilities" = some raw ∧
    Provider.serverCapabilities.read raw = some set

theorem advertised_eq_ok {result set : Json} : advertised result = .ok set ↔ Gives result set := by
  unfold advertised Gives
  cases result with
  | obj members =>
    simp only [Json.get?, Json.obj.injEq, exists_and_left, exists_eq_left']
    cases members.lookup "capabilities" with
    | none => simp
    | some raw =>
      simp only [Option.some.injEq, exists_eq_left']
      cases Provider.serverCapabilities.read raw <;> simp
  | _ => simp [Json.get?]

theorem get?_of_malformed {result raw : Json}
    (refused : advertised result = .error (.malformed raw)) :
    result.get? "capabilities" = some raw := by
  unfold advertised at refused
  split at refused
  · cases refused
  · split at refused
    · cases refused
      assumption
    · cases refused

end Capabilities

namespace Mux

/-- The warning about a backend's handshake result, if the result gives no capability set. -/
def warning? (name : String) (result : Json) : Option Log :=
  (Capabilities.issue? result).map fun
    | .absent => .noCapabilities name
    | .malformed raw => .malformedCapabilities name raw

theorem warning?_of_gives {result set : Json} (gives : Capabilities.Gives result set)
    (name : String) :
    warning? name result = none ∧ Capabilities.ofResult result = set := by
  have ok := Capabilities.advertised_eq_ok.mpr gives
  rw [warning?, Capabilities.issue?, Capabilities.ofResult, ok]
  exact ⟨rfl, rfl⟩

theorem warning?_of_not_gives {result : Json} (none : ∀ set, ¬Capabilities.Gives result set)
    (name : String) :
    (warning? name result = some (.noCapabilities name) ∨
      ∃ raw, result.get? "capabilities" = some raw ∧
        warning? name result = some (.malformedCapabilities name raw)) ∧
    Capabilities.ofResult result = .obj [] := by
  rw [warning?, Capabilities.issue?, Capabilities.ofResult]
  cases given : Capabilities.advertised result with
  | ok set => exact absurd (Capabilities.advertised_eq_ok.mp given) (none set)
  | error issue =>
    cases issue with
    | absent => exact ⟨.inl rfl, rfl⟩
    | malformed raw => exact ⟨.inr ⟨raw, Capabilities.get?_of_malformed given, rfl⟩, rfl⟩

def Effect.warning? : Effect → Option Log
  | .logged log => if log.isAboutCapabilities then some log else none
  | _ => none

def warnings (es : List Effect) : List Log := es.filterMap Effect.warning?

@[simp] theorem warnings_append (es es' : List Effect) :
    warnings (es ++ es') = warnings es ++ warnings es' := List.filterMap_append

theorem warnings_eq_nil {es : List Effect} (silent : ∀ e ∈ es, e.warning? = none) :
    warnings es = [] := List.filterMap_eq_nil_iff.mpr silent

theorem warnings_of_plain {es : List Effect} (plain : ∀ e ∈ es, e.isPlain = true) :
    warnings es = [] :=
  warnings_eq_nil fun e member => by
    cases e with
    | logged log =>
      have other : log.isAboutNotifications = true := plain _ member
      cases log with
      | notificationDropped | broadcastFailed => rfl
      | _ => cases other
    | _ => rfl

@[simp] theorem warnings_map_ended {α : Type} (f : α → Nat) (g : α → Outcome) (l : List α) :
    warnings (l.map fun a => .ended (f a) (g a)) = [] :=
  warnings_eq_nil fun e member => by
    obtain ⟨a, -, rfl⟩ := List.mem_map.mp member
    rfl

theorem warnings_issueLogs (agents : List Agent) :
    warnings (agents.flatMap CallSide.issueLog) =
      agents.filterMap fun a => warning? a.name a.result := by
  induction agents with
  | nil => rfl
  | cons a rest ih =>
    rw [List.flatMap_cons, warnings_append, ih, List.filterMap_cons, CallSide.issueLog,
      Mux.warning?]
    cases Capabilities.issue? a.result with
    | none => rfl
    | some issue => cases issue <;> rfl

/-- The warnings that the publication of a handshake has brought. -/
def Phase.warned (phase : Phase) : List Log :=
  phase.agents.filterMap fun a => warning? a.name a.result

namespace CallSide

def Unpublished (s : CallSide) : Prop := s.attempt ≠ none → s.phase = .uninitialized

/-- The warnings among these effects are those that the phase has brought meanwhile. -/
structure Announces (s s' : CallSide) (es : List Effect) : Prop where
  unpublished : s'.Unpublished
  warned : s'.phase.warned = s.phase.warned ++ warnings es

variable {s s' s'' : CallSide} {es es' : List Effect}

theorem Announces.trans (first : s.Announces s' es) (second : s'.Announces s'' es') :
    s.Announces s'' (es ++ es') :=
  ⟨second.unpublished, by rw [second.warned, first.warned, warnings_append, List.append_assoc]⟩

theorem Announces.silent (unpublished : s'.Unpublished) (phase : s'.phase = s.phase)
    (none : warnings es = []) : s.Announces s' es :=
  ⟨unpublished, by rw [phase, none, List.append_nil]⟩

theorem warnings_fanOutEffects (backends : List Backend) (params : Json) :
    warnings (fanOutEffects backends params) = [] :=
  warnings_eq_nil fun e member => by
    rcases List.mem_cons.mp member with rfl | member
    · rfl
    · obtain ⟨_, -, rfl⟩ := List.mem_map.mp member
      rfl

theorem warnings_publish (call : Nat) (results : List (Option Json)) :
    warnings (s.publish call results).2 = (s.publish call results).1.phase.warned := by
  have own : warnings [.logged .handshakeComplete,
      .ended call (.ok (merged (agentsOf s.backends results) s.fallback))] = [] := rfl
  simp only [publish, warnings_append, warnings_issueLogs, own, warnings_map_ended, List.append_nil,
    Phase.warned, Phase.agents]

theorem warnings_failAttempt (a : Attempt) (backend : Nat) (reply : Reply) :
    warnings (s.failAttempt a backend reply) = [] := by
  have dropped (f : Nat × Reply → Option Effect) (logs : ∀ r e, f r = some e → e.warning? = none) :
      warnings (a.finished.filterMap f) = [] :=
    warnings_eq_nil fun e member => by
      obtain ⟨r, -, logged⟩ := List.mem_filterMap.mp member
      exact logs r e logged
  unfold failAttempt
  rw [warnings_append, warnings_append, dropped]
  · cases reply <;> rfl
  · intro r e logged
    split at logged
    · cases logged
      rfl
    · cases logged

theorem warnings_endRouted (s : CallSide) : warnings s.endRouted.2 = [] := by
  refine warnings_eq_nil fun e member => ?_
  rcases mem_endRouted member with ⟨_, _, rfl⟩ | ⟨_, _, rfl⟩ <;> rfl

theorem advance_announces (uninitialized : s.phase = .uninitialized) (a : Attempt) :
    s.Announces (s.advance a).1 (s.advance a).2 := by
  have fresh : s.phase.warned = [] := by rw [uninitialized]; rfl
  unfold advance
  split
  · exact .silent (fun _ => uninitialized) rfl rfl
  · exact ⟨fun held => absurd rfl held, by rw [fresh, warnings_publish, List.nil_append]⟩
  · exact .silent (fun _ => uninitialized) rfl (warnings_failAttempt ..)

theorem Happens.announces (unpublished : s.Unpublished) (happens : s.Happens s' es) :
    s.Announces s' es := by
  cases happens with
  | watches | queues => exact .silent unpublished rfl rfl
  | watched | refuses => exact .silent unpublished rfl rfl
  | concludes _ _ _ _ plain =>
    exact .silent unpublished rfl (by rw [warnings_append, warnings_of_plain plain]; rfl)
  | stalls _ _ plain => exact .silent unpublished rfl (warnings_of_plain plain)
  | routes => exact .silent unpublished rfl rfl
  | opens _ _ uninitialized | turns _ uninitialized =>
    rw [opened_eq]
    exact .silent (fun _ => uninitialized) rfl (warnings_fanOutEffects _ _)
  | advances held => exact advance_announces (unpublished (by simp [held])) _
  | ends => exact .silent unpublished rfl (warnings_endRouted s)

theorem Runs.announces (unpublished : s.Unpublished) (runs : s.Runs s' es) :
    s.Announces s' es := by
  induction runs with
  | rest => exact .silent unpublished rfl rfl
  | more _ next ih => exact ih.trans (next.announces ih.unpublished)

theorem Moved.unpublished (unpublished : s.Unpublished) {d : Ledger} (moved : s.Moved s' d) :
    s'.Unpublished := by
  intro held
  rw [moved.phase]
  refine unpublished fun none => held ?_
  cases moved with
  | cancelled => simp [cancel, none]
  | answered | closed => simp [heard, none]
  | tornDown => rfl
  | _ => exact none

end CallSide

namespace Session

def effects : Session → List Command → List Effect
  | _, [] => []
  | s, c :: rest => (s.step c).2.2 ++ effects (s.step c).1 rest

theorem warnings_forwardAll {α : Type} (isCancelled : Bool) (indices : List Nat) (f : FanIn α) :
    warnings ((FanIn.forwardAll isCancelled indices f).2.map .logged) = [] := by
  induction indices generalizing f with
  | nil => rfl
  | cons index rest ih =>
    have first : warnings ((f.forward isCancelled index).2.map .logged) = [] := by
      unfold FanIn.forward
      split
      · rfl
      · split
        · rfl
        · split
          · rfl
          · split
            · rfl
            · dsimp only
              split <;> rfl
    simp only [FanIn.forwardAll, List.map_append, warnings_append, first, ih, List.append_nil]

theorem warnings_act (s : Session) (c : Command) : warnings (s.act c).2.2 = [] := by
  rcases act_effects s c with none | ⟨call, -, -, -, one⟩ | ⟨ends, -⟩
  · rw [none]
    rfl
  · rw [one]
    rfl
  · have calls : warnings s.calls.tearDown.2 = [] := warnings_map_ended ..
    unfold act
    split
    · rfl
    · split
      · rfl
      · cases c with
        | shutdown =>
          simp only [perform, shutDown, FanIn.cancel, List.map_append, warnings_append,
            warnings_forwardAll, calls]
          rfl
        | drop => exact calls
        | _ => cases ends

theorem step_announces {s : Session} (unpublished : s.calls.Unpublished) (c : Command) :
    s.calls.Announces (s.step c).1.calls (s.step c).2.2 := by
  have acted := act_moved s c
  have settled := (s.act c).1.calls.settle_runs.announces (acted.unpublished unpublished)
  refine ⟨settled.unpublished, ?_⟩
  rw [step_calls, settled.warned, acted.phase]
  simp only [step, settle, warnings_append, warnings_act, List.map_append, FanIn.settle,
    warnings_forwardAll, List.nil_append, List.append_nil]

/-- All that a run warns of are the results that were published. -/
theorem run_announces {s : Session} (unpublished : s.calls.Unpublished) (commands : List Command) :
    s.calls.Announces (s.run commands).calls (s.effects commands) := by
  induction commands generalizing s with
  | nil => exact .silent unpublished rfl rfl
  | cons c rest ih =>
    have first := step_announces unpublished c
    exact first.trans (ih first.unpublished)

end Session

end Mux

end Switchboard
