import Switchboard.Proofs.Mux.Deliveries
import Switchboard.Proofs.Mux.Streams

namespace Switchboard.Mux

theorem queueIn_modify (bs : List Backend) (f : Backend → Backend) (index i : Nat) :
    queueIn i (bs.modify index f) =
      if i = index then (bs[i]?.map fun b => (f b).queue).getD [] else queueIn i bs := by
  rw [queueIn, queueIn, List.getElem?_modify]
  by_cases same : i = index
  · subst same
    cases bs[i]? <;> simp
  · cases bs[i]? <;> simp [same, Ne.symm same]

namespace CallSide

variable {s s' : CallSide} {d : Ledger}

theorem Moved.queueAt_subset (channels : ∀ b ∈ s.backends, b.IsChannel) (moved : s.Moved s' d)
    (i : Nat) : s'.queueAt i ⊆ s.queueAt i := by
  have modified {index : Nat} {f : Backend → Backend}
      (fewer : ∀ b ∈ s.backends, (f b).queue ⊆ b.queue) :
      queueIn i (s.backends.modify index f) ⊆ queueIn i s.backends := by
    rw [queueIn_modify]
    split
    · rw [queueIn]
      cases here : s.backends[i]? with
      | none => exact List.Subset.refl _
      | some b => exact fewer b (List.mem_of_getElem? here)
    · exact List.Subset.refl _
  have dequeued : ∀ b ∈ s.backends, b.dequeue.queue ⊆ b.queue := fun b member => by
    rw [(channels b member).queue_dequeue]
    exact (List.tail_sublist _).subset
  cases moved with
  | noticed => exact modified dequeued
  | taken => exact modified dequeued
  | closed =>
    refine modified fun b member => ?_
    rw [(channels b member).queue_close]
    exact List.nil_subset _
  | _ => exact List.Subset.refl _

theorem Moved.queued_of_taken (moved : s.Moved s' d) {ref : RequestRef} {method : String}
    {params : Json} (taken : (ref, method, params) ∈ d.taken) :
    .request ref.call method params ∈ s.queueAt ref.backend := by
  cases moved with
  | taken here accepting queue =>
    cases List.mem_singleton.mp taken
    rw [queueAt, queueIn, here, Option.map_some, Option.getD_some, queue]
    exact List.mem_cons_self
  | _ => cases taken

theorem Moved.fresh (quiet : s.Quiet) (moved : s.Moved s' d) : s'.fresh = d.issued := by
  have fresh := quiet.fresh
  cases moved with
  | issued ask => rw [issue, fresh]; rfl
  | cancelled => simp [cancel, fresh]
  | tornDown => rfl
  | _ => exact fresh

theorem Moved.reach (moved : s.Moved s' d) (issues : d.issued ≠ []) : s'.reach = s.reach := by
  cases moved with
  | issued => rfl
  | _ => exact absurd rfl issues

end CallSide

namespace Session

/-- What enters the queue of a channel when a command has acted and everything proceeds. -/
def enqueued (s : Session) (index : Nat) (c : Command) : List Outbound :=
  ((s.step c).1.calls.queueAt index).drop ((s.act c).1.calls.queueAt index).length

def accepted (index : Nat) : Session → List Command → List Outbound
  | _, [] => []
  | s, c :: rest => s.enqueued index c ++ (s.step c).1.accepted index rest

/-- The message of the call that a command issues, when it comes through to a channel: those in
    front of it are open, and so is the channel. -/
def relays (s : Session) (index : Nat) (c : Command) : List Outbound :=
  if index < s.calls.reach then
    (c.issues (s.step c).2.1).filterMap fun x => x.2.message? x.1 index
  else []

/-- The messages of the calls that these commands issue, as far as they come through. -/
def relayed (index : Nat) : Session → List Command → List Outbound
  | _, [] => []
  | s, c :: rest => s.relays index c ++ (s.step c).1.relayed index rest

variable {s : Session}

theorem accepted_append (s : Session) (index : Nat) (before after : List Command) :
    s.accepted index (before ++ after) =
      s.accepted index before ++ (s.run before).accepted index after := by
  induction before generalizing s with
  | nil => rfl
  | cons c rest ih => rw [List.cons_append, accepted, accepted, ih, List.append_assoc, run_cons]

theorem step_begins {issued : List (Nat × Ask)} (sound : s.calls.Sound) (quiet : s.calls.Quiet)
    (asked : Asked issued s.calls) (uninitialized : s.calls.phase = .uninitialized) (c : Command) :
    ∃ begun, CallSide.Begins (issued ++ (s.notedAtOnce c).issued) (s.act c).1.calls
      (s.step c).1.calls begun := by
  have moved := act_moved s c
  exact CallSide.settle_begins (sound.moved moved) (moved.few quiet) (asked.moved moved)
    (moved.phase.trans uninitialized)

theorem step_relays (sound : s.calls.Sound) (quiet : s.calls.Quiet)
    (initialized : s.calls.phase.isInitialized = true) (c : Command) :
    (∀ i, (s.step c).1.calls.queueAt i = (s.act c).1.calls.queueAt i ++ s.relays i c) ∧
    (s.step c).1.calls.backends.map Backend.accepts =
      (s.act c).1.calls.backends.map Backend.accepts := by
  have moved := act_moved s c
  obtain ⟨queues, accepts⟩ := CallSide.settle_relays (sound.moved moved) (moved.few quiet)
    (moved.phase ▸ initialized)
  refine ⟨fun i => (queues i).trans ?_, accepts⟩
  rw [moved.fresh quiet, relays, show c.issues (s.step c).2.1 = (s.notedAtOnce c).issued from rfl]
  by_cases issues : (s.notedAtOnce c).issued = []
  · simp [issues]
  · rw [moved.reach issues]

theorem enqueued_eq {index : Nat} {c : Command} {added : List Outbound}
    (queue : (s.step c).1.calls.queueAt index = (s.act c).1.calls.queueAt index ++ added) :
    s.enqueued index c = added := by
  rw [enqueued, queue, List.drop_left]

theorem queueAt_step {issued : List (Nat × Ask)} (sound : s.calls.Sound) (quiet : s.calls.Quiet)
    (asked : Asked issued s.calls) (index : Nat) (c : Command) :
    (s.step c).1.calls.queueAt index =
      (s.act c).1.calls.queueAt index ++ s.enqueued index c := by
  cases phase : s.calls.phase with
  | uninitialized =>
    obtain ⟨begun, begins⟩ := step_begins sound quiet asked phase c
    rw [enqueued_eq (begins.queues index)]
    exact begins.queues index
  | initialized agents =>
    have queue := (step_relays sound quiet (by rw [phase]; rfl) c).1 index
    rw [enqueued_eq queue]
    exact queue

theorem accepts_step {issued : List (Nat × Ask)} (sound : s.calls.Sound) (quiet : s.calls.Quiet)
    (asked : Asked issued s.calls) (c : Command) :
    (s.step c).1.calls.backends.map Backend.accepts =
      (s.act c).1.calls.backends.map Backend.accepts := by
  cases phase : s.calls.phase with
  | uninitialized =>
    obtain ⟨begun, begins⟩ := step_begins sound quiet asked phase c
    exact begins.accepts
  | initialized agents => exact (step_relays sound quiet (by rw [phase]; rfl) c).2

theorem isOpen_step {issued : List (Nat × Ask)} (sound : s.calls.Sound) (quiet : s.calls.Quiet)
    (asked : Asked issued s.calls) (c : Command) (i : Nat) :
    (s.step c).1.calls.isOpen i = (s.act c).1.calls.isOpen i :=
  any_accepts_congr (accepts_step sound quiet asked c) i

/-- From the published handshake on, a channel accepts what is relayed to it. -/
theorem accepted_of_initialized (sound : s.calls.Sound) (quiet : s.calls.Quiet)
    (initialized : s.calls.phase.isInitialized = true) (index : Nat) (commands : List Command) :
    s.accepted index commands = s.relayed index commands := by
  induction commands generalizing s with
  | nil => rfl
  | cons c rest ih =>
    obtain ⟨sound', quiet'⟩ := step_sound sound quiet c
    have still : (s.step c).1.calls.phase.isInitialized = true := by
      cases phase : s.calls.phase with
      | uninitialized => rw [phase] at initialized; cases initialized
      | initialized agents =>
        rw [show (s.step c).1.calls = (s.run [c]).calls from rfl,
          (run_keeps sound quiet [c]).phase agents phase]
        rfl
    rw [accepted, relayed, ih sound' quiet' still,
      enqueued_eq ((step_relays sound quiet initialized c).1 index)]

theorem relayed_sublist (s : Session) (index : Nat) (commands : List Command) :
    (s.relayed index commands).Sublist
      ((s.ledger commands).issued.filterMap fun x => x.2.message? x.1 index) := by
  induction commands generalizing s with
  | nil => exact .slnil
  | cons c rest ih =>
    rw [relayed, ledger, Ledger.issued_append, List.filterMap_append]
    refine List.Sublist.append ?_ (ih _)
    rw [relays]
    split
    · exact .refl _
    · exact List.nil_sublist _

end Session

end Switchboard.Mux
