import Switchboard.Proofs.Mux.Requests

namespace Switchboard.Mux

def Effect.ending? : Effect → Option (Nat × Outcome)
  | .ended call outcome => some (call, outcome)
  | _ => none

def Effect.isSent : Effect → Bool
  | .sent .. => true
  | _ => false

def Effect.sendsHandshake : Effect → Bool
  | .sent _ _ isRequest method _ _ => isRequest && isHandshake method
  | _ => false

def endings (effects : List Effect) : List (Nat × Outcome) := effects.filterMap Effect.ending?

@[simp] theorem endings_nil : endings [] = [] := rfl

@[simp] theorem endings_append (es es' : List Effect) :
    endings (es ++ es') = endings es ++ endings es' := List.filterMap_append

@[simp] theorem endings_ended (call : Nat) (outcome : Outcome) (es : List Effect) :
    endings (.ended call outcome :: es) = (call, outcome) :: endings es := rfl

@[simp] theorem endings_sent (index : Nat) (server : String) (isRequest : Bool) (method : String)
    (params : Json) (accepted : Bool) (es : List Effect) :
    endings (.sent index server isRequest method params accepted :: es) = endings es := rfl

@[simp] theorem endings_logged (log : Log) (es : List Effect) :
    endings (.logged log :: es) = endings es := rfl

theorem endings_eq_nil {es : List Effect} (silent : ∀ e ∈ es, e.ending? = none) :
    endings es = [] := List.filterMap_eq_nil_iff.mpr silent

@[simp] theorem endings_map_logged (logs : List Log) : endings (logs.map .logged) = [] :=
  endings_eq_nil fun e member => by
    obtain ⟨log, -, rfl⟩ := List.mem_map.mp member
    rfl

@[simp] theorem endings_map_ended {α : Type} (f : α → Nat) (g : α → Outcome) (l : List α) :
    endings (l.map fun a => .ended (f a) (g a)) = l.map fun a => (f a, g a) := by
  induction l with
  | nil => rfl
  | cons a rest ih => simp [ih]

namespace CallSide

variable {s : CallSide}

@[simp] theorem endings_fanOutEffects (backends : List Backend) (params : Json) :
    endings (fanOutEffects backends params) = [] := by
  refine endings_eq_nil fun e member => ?_
  rcases List.mem_cons.mp member with rfl | member
  · rfl
  · obtain ⟨_, -, rfl⟩ := List.mem_map.mp member
    rfl

@[simp] theorem endings_broadcast (method : String) (params : Json) (index : Nat)
    (bs : List Backend) : endings (broadcast method params index bs).2.2 = [] := by
  induction bs generalizing index with
  | nil => rfl
  | cons b rest ih =>
    rw [broadcast]
    dsimp only
    split
    · rw [endings_sent]
      exact ih (index + 1)
    · rfl
    · rfl

theorem issueLog_logged {agent : Agent} {e : Effect} (member : e ∈ issueLog agent) :
    ∃ log, e = .logged log := by
  unfold issueLog at member
  split at member
  · cases member
  · exact ⟨_, List.mem_singleton.mp member⟩
  · exact ⟨_, List.mem_singleton.mp member⟩

@[simp] theorem endings_publish (call : Nat) (results : List (Option Json)) :
    endings (s.publish call results).2 =
      (call, .ok (merged (agentsOf s.backends results) s.fallback)) ::
        s.watchers.map fun w => (w, .ok .null) := by
  have silent : endings ((agentsOf s.backends results).flatMap issueLog) = [] := by
    refine endings_eq_nil fun e member => ?_
    obtain ⟨agent, -, logged⟩ := List.mem_flatMap.mp member
    obtain ⟨log, rfl⟩ := issueLog_logged logged
    rfl
  simp [publish, silent]

theorem unsent_publish (call : Nat) (results : List (Option Json)) :
    ∀ e ∈ (s.publish call results).2, e.isSent = false := by
  intro e member
  simp only [publish, List.mem_append, List.mem_flatMap, List.mem_cons, List.not_mem_nil, or_false,
    List.mem_map] at member
  rcases member with (⟨agent, -, logged⟩ | rfl | rfl) | ⟨w, -, rfl⟩
  · obtain ⟨log, rfl⟩ := issueLog_logged logged
    rfl
  · rfl
  · rfl
  · rfl

@[simp] theorem endings_failAttempt (a : Attempt) (backend : Nat) (reply : Reply) :
    endings (s.failAttempt a backend reply) =
      [(a.call, .error (s.errorOf backend reply))] := by
  have silent (f : Nat × Reply → Option Effect) (logs : ∀ r e, f r = some e → e.ending? = none) :
      endings (a.finished.filterMap f) = [] := by
    refine endings_eq_nil fun e member => ?_
    obtain ⟨r, -, logged⟩ := List.mem_filterMap.mp member
    exact logs r e logged
  unfold failAttempt
  rw [endings_append, endings_append, silent]
  · cases reply <;> rfl
  · intro r e logged
    split at logged
    · cases logged
      rfl
    · cases logged

end CallSide

end Switchboard.Mux
