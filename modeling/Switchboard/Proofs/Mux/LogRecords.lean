import Switchboard.Proofs.Mux.Lanes
import Switchboard.Proofs.Mux.Observers

namespace Switchboard.Mux

namespace Log

def isOfHandshake : Log → Bool
  | .handshaking _ | .handshakeFailed .. | .handshakeComplete | .noCapabilities _
  | .malformedCapabilities .. => true
  | _ => false

def isRequestDropped : Log → Bool
  | .requestDropped .. => true
  | _ => false

def isForwarding (kind : StreamKind) : Log → Bool
  | .forwarding k _ => k = kind
  | _ => false

def isStop (kind : StreamKind) : Log → Bool
  | .sourceClosed k _ | .mergedDropped k _ | .forwarderCancelled k _ => k = kind
  | _ => false

def isOfForwarder : Log → Bool
  | .forwarding .. | .sourceClosed .. | .mergedDropped .. | .forwarderCancelled .. => true
  | _ => false

end Log

def Reply.isDropped : Reply → Bool
  | .dropped => true
  | _ => false

def Reply.isPanicked : Reply → Bool
  | .panicked _ => true
  | _ => false

def Effect.log? : Effect → Option Log
  | .logged log => some log
  | _ => none

def logs (es : List Effect) : List Log := es.filterMap Effect.log?

@[simp] theorem logs_nil : logs [] = [] := rfl

@[simp] theorem logs_append (es es' : List Effect) : logs (es ++ es') = logs es ++ logs es' :=
  List.filterMap_append

@[simp] theorem logs_ended (call : Nat) (outcome : Outcome) (es : List Effect) :
    logs (.ended call outcome :: es) = logs es := rfl

@[simp] theorem logs_logged (log : Log) (es : List Effect) :
    logs (.logged log :: es) = log :: logs es := rfl

@[simp] theorem logs_map_ended {α : Type} (f : α → Nat) (g : α → Outcome) (l : List α) :
    logs (l.map fun a => .ended (f a) (g a)) = [] :=
  List.filterMap_eq_nil_iff.mpr fun e member => by
    obtain ⟨a, -, rfl⟩ := List.mem_map.mp member
    rfl

@[simp] theorem logs_map_logged (l : List Log) : logs (l.map .logged) = l := by
  rw [logs, List.filterMap_map]
  exact List.filterMap_some

theorem warnings_eq (es : List Effect) :
    warnings es = (logs es).filter Log.isAboutCapabilities := by
  rw [warnings, logs, List.filter_filterMap]
  refine List.filterMap_congr fun e _ => ?_
  cases e with
  | logged log => simp [Effect.warning?, Effect.log?, Option.filter]
  | _ => rfl

theorem logs_of_plain {es : List Effect} (plain : ∀ e ∈ es, e.isPlain = true) :
    ∀ log ∈ logs es, log.isAboutNotifications = true := by
  intro log member
  obtain ⟨e, here, logged⟩ := List.mem_filterMap.mp member
  cases e with
  | logged => exact Option.some.inj logged ▸ plain _ here
  | _ => cases logged

theorem filter_eq_nil_of {p q : Log → Bool} {l : List Log} (all : ∀ log ∈ l, q log = true)
    (other : ∀ log, q log = true → p log = false) : l.filter p = [] :=
  List.filter_eq_nil_iff.mpr fun log member => Bool.eq_false_iff.mp (other log (all log member))

theorem Log.isOfHandshake_of_isAboutNotifications {log : Log}
    (about : log.isAboutNotifications = true) : log.isOfHandshake = false := by
  cases log <;> first | rfl | cases about

theorem Log.isRequestDropped_of_isAboutNotifications {log : Log}
    (about : log.isAboutNotifications = true) : log.isRequestDropped = false := by
  cases log <;> first | rfl | cases about

theorem Log.isOfForwarder_of_isAboutNotifications {log : Log}
    (about : log.isAboutNotifications = true) : log.isOfForwarder = false := by
  cases log <;> first | rfl | cases about

theorem Log.isRequestDropped_of_isOfHandshake {log : Log} (handshake : log.isOfHandshake = true) :
    log.isRequestDropped = false := by
  cases log <;> first | rfl | cases handshake

theorem Log.isOfForwarder_of_isOfHandshake {log : Log} (handshake : log.isOfHandshake = true) :
    log.isOfForwarder = false := by
  cases log <;> first | rfl | cases handshake

theorem Phase.isOfHandshake_warned (phase : Phase) :
    ∀ log ∈ phase.warned, log.isOfHandshake = true := by
  intro log member
  obtain ⟨a, -, warns⟩ := List.mem_filterMap.mp member
  obtain ⟨issue, -, rfl⟩ := Option.map_eq_some_iff.mp warns
  cases issue <;> rfl

theorem Log.isOfForwarder_of_isStop {kind : StreamKind} {log : Log}
    (stops : log.isStop kind = true) : log.isOfForwarder = true := by
  cases log <;> first | rfl | cases stops

theorem Log.isOfHandshake_of_isOfForwarder {log : Log} (forwards : log.isOfForwarder = true) :
    log.isOfHandshake = false := by
  cases log <;> first | rfl | cases forwards

theorem Log.isRequestDropped_of_isOfForwarder {log : Log} (forwards : log.isOfForwarder = true) :
    log.isRequestDropped = false := by
  cases log <;> first | rfl | cases forwards

namespace CallSide

variable {s s' : CallSide} {es : List Effect}

theorem logs_fanOutEffects (backends : List Backend) (params : Json) :
    logs (fanOutEffects backends params) = [.handshaking backends.length] := by
  have sent : logs ((backends.zipIdx).map fun e =>
      .sent e.2 e.1.name true handshakeMethod params e.1.accepts) = [] :=
    List.filterMap_eq_nil_iff.mpr fun e member => by
      obtain ⟨_, -, rfl⟩ := List.mem_map.mp member
      rfl
  rw [fanOutEffects, logs_logged, sent]

theorem logs_publish (call : Nat) (results : List (Option Json)) :
    logs (s.publish call results).2 =
      (s.publish call results).1.phase.warned ++ [.handshakeComplete] := by
  have warned : logs ((agentsOf s.backends results).flatMap issueLog) =
      warnings ((agentsOf s.backends results).flatMap issueLog) := by
    rw [warnings_eq, List.filter_eq_self.mpr]
    intro log member
    obtain ⟨e, here, logged⟩ := List.mem_filterMap.mp member
    obtain ⟨agent, -, issued⟩ := List.mem_flatMap.mp here
    unfold issueLog at issued
    split at issued
    · cases issued
    · cases List.mem_singleton.mp issued
      exact Option.some.inj logged ▸ rfl
    · cases List.mem_singleton.mp issued
      exact Option.some.inj logged ▸ rfl
  simp only [publish, logs_append, warned, warnings_issueLogs, logs_logged, logs_ended, logs_nil,
    logs_map_ended, List.append_nil, Phase.warned, Phase.agents]

theorem logs_failAttempt (a : Attempt) (i : Nat) (reply : Reply) :
    logs (s.failAttempt a i reply) =
      ((a.finished.filter fun r => r.2.isDropped).map fun r =>
        .requestDropped (s.nameOf r.1) handshakeMethod) ++
      if reply.isPanicked then [] else [.handshakeFailed (s.nameOf i) (s.errorOf i reply)] := by
  have dropped (f : Nat × Reply → Option Effect) (g : Nat × Reply → Log)
      (same : ∀ r, (f r).bind Effect.log? = if r.2.isDropped then some (g r) else none) :
      logs (a.finished.filterMap f) = (a.finished.filter fun r => r.2.isDropped).map g := by
    rw [logs, List.filterMap_filterMap, ← List.filterMap_eq_map, List.filterMap_filter]
    exact List.filterMap_congr fun r _ => same r
  unfold failAttempt
  rw [logs_append, logs_append, dropped _ fun r => .requestDropped (s.nameOf r.1) handshakeMethod]
  · cases reply <;> simp [Reply.isPanicked]
  · rintro ⟨j, reply⟩
    cases reply <;> rfl

theorem logs_endRouted (s : CallSide) :
    logs s.endRouted.2 = (s.routed.filter fun r => r.reply.any Reply.isDropped).map fun r =>
      .requestDropped (s.nameOf 0) r.method := by
  show logs (s.routed.flatMap fun r => (r.reply.map (s.finishRouted r)).getD []) = _
  induction s.routed with
  | nil => rfl
  | cons r rest ih =>
    rw [List.flatMap_cons, logs_append, ih]
    obtain ⟨call, method, reply⟩ := r
    cases reply with
    | none => rfl
    | some reply => cases reply <;> rfl

end CallSide

theorem Lane.isStop_of_lastWords {α : Type} {l : Lane α} {kind : StreamKind} {reader : Reader}
    {log : Log} (words : l.lastWords kind reader = some log) : log.isStop kind = true := by
  unfold lastWords at words
  split at words
  · cases words
  · split at words
    · cases words
      exact decide_eq_true rfl
    · split at words
      · cases words
      · cases words
        exact decide_eq_true rfl

namespace FanIn

variable {α : Type}

theorem logs_forward (f : FanIn α) (index : Nat) :
    (f.forward false index).2 = (f.lanes[index]?.bind (Lane.lastWords f.kind f.reader)).toList := by
  rw [forward_live]
  cases f.lanes[index]? with
  | none => rfl
  | some lane =>
    dsimp only [Option.bind_some, Lane.lastWords]
    split
    · rfl
    · split
      · rfl
      · split <;> rfl

@[simp] theorem kind_forward (isCancelled : Bool) (f : FanIn α) (index : Nat) :
    (f.forward isCancelled index).1.kind = f.kind := by
  obtain ⟨lanes, merged, same⟩ := f.forward_eq isCancelled index
  rw [same]

@[simp] theorem kind_forwardAll (isCancelled : Bool) (indices : List Nat) (f : FanIn α) :
    (forwardAll isCancelled indices f).1.kind = f.kind := by
  induction indices generalizing f with
  | nil => rfl
  | cons index rest ih =>
    exact (ih (f.forward isCancelled index).1).trans (kind_forward isCancelled f index)

theorem isStop_forwardAll (indices : List Nat) (f : FanIn α) :
    ∀ log ∈ (forwardAll false indices f).2, log.isStop f.kind = true := by
  induction indices generalizing f with
  | nil => nofun
  | cons index rest ih =>
    have later := ih (f.forward false index).1
    rw [kind_forward] at later
    have first : ∀ log ∈ (f.forward false index).2, log.isStop f.kind = true := by
      intro log member
      rw [logs_forward, Option.mem_toList] at member
      obtain ⟨lane, -, words⟩ := Option.bind_eq_some_iff.mp member
      exact Lane.isStop_of_lastWords words
    exact List.forall_mem_append.mpr ⟨first, later⟩

theorem isStop_settle (f : FanIn α) : ∀ log ∈ f.settle.2, log.isStop f.kind = true :=
  isStop_forwardAll f.woken { f with woken := [] }

end FanIn

namespace Session

theorem logs_act {s : Session} {c : Command} (goesOn : c.tearsDown = false) :
    logs (s.act c).2.2 = [] := by
  rcases act_effects s c with none | ⟨call, -, -, -, one⟩ | ⟨ends, -⟩
  · rw [none]
    rfl
  · rw [one]
    rfl
  · rw [goesOn] at ends
    cases ends

/-- All that is logged when a session is made and while these commands run. -/
def log (s : Session) (commands : List Command) : List Log :=
  s.startLogs ++ logs (s.effects commands)

theorem filter_startLogs {p : Log → Bool} (count : ∀ n, p (.multiplexing n) = false)
    (starts : ∀ kind name, p (.forwarding kind name) = false) (s : Session) :
    s.startLogs.filter p = [] := by
  simp [startLogs, List.filter_flatMap, count, starts]

theorem logs_step {s : Session} {c : Command} (goesOn : c.tearsDown = false) :
    logs (s.step c).2.2 = logs (s.act c).1.calls.settle.2 ++
      ((s.act c).1.notifications.settle.2 ++ (s.act c).1.requests.settle.2) := by
  simp only [step, settle, logs_append, logs_act goesOn, logs_map_logged, List.nil_append]

theorem filter_logs_step {s : Session} {c : Command} (goesOn : c.tearsDown = false)
    {p : Log → Bool} (other : ∀ log, log.isOfForwarder = true → p log = false) :
    (logs (s.step c).2.2).filter p = (logs (s.act c).1.calls.settle.2).filter p := by
  have none {α : Type} (f : FanIn α) : f.settle.2.filter p = [] :=
    filter_eq_nil_of f.isStop_settle fun log stops =>
      other log (Log.isOfForwarder_of_isStop stops)
  rw [logs_step goesOn, List.filter_append, List.filter_append, none, none, List.append_nil,
    List.append_nil]

theorem effects_append (s : Session) (before after : List Command) :
    s.effects (before ++ after) = s.effects before ++ (s.run before).effects after := by
  induction before generalizing s with
  | nil => rfl
  | cons c rest ih =>
    rw [List.cons_append, effects, effects, ih, List.append_assoc]
    rfl

theorem effects_snoc (s : Session) (commands : List Command) (c : Command) :
    s.effects (commands ++ [c]) = s.effects commands ++ ((s.run commands).step c).2.2 := by
  rw [effects_append, effects, effects, List.append_nil]

end Session

end Switchboard.Mux
