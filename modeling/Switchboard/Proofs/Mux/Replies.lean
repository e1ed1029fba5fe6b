import Switchboard.Proofs.Mux.Awaited
import Switchboard.Proofs.Mux.Broadcasts

namespace Switchboard.Mux

namespace CallSide

variable {s s' : CallSide}

theorem routedOutcome_congr (names : s'.backends.map Backend.name = s.backends.map Backend.name)
    (reply : Reply) : s'.routedOutcome reply = s.routedOutcome reply := by
  cases reply with
  | dropped =>
    have first := congrArg (·[0]?) names
    simp only [List.getElem?_map] at first
    simp only [routedOutcome, errorOf]
    cases here : s'.backends[0]? <;> cases there : s.backends[0]? <;> rw [here, there] at first
    · cases first
    · cases first
    · simp only [Option.map_some, Option.some.injEq] at first
      simp only [Backend.closedError, first]
  | _ => rfl

theorem Sound.settle_conserves (sound : s.Sound) (few : s.fresh.length ≤ 1) (call : Nat) :
    s.settle.1.unfinished.count call + ((endings s.settle.2).map Prod.fst).count call =
      s.unfinished.count call := by
  refine settle_induction sound few (P := fun t es =>
    t.unfinished.count call + ((endings es).map Prod.fst).count call = s.unfinished.count call)
    rfl fun {t t' es es'} _ here proceeds => ?_
  have next := proceeds.conserves call
  rw [endings_append, List.map_append, List.count_append]
  omega

theorem Sound.settle_distinct (sound : s.Sound) (few : s.fresh.length ≤ 1) :
    ((endings s.settle.2).map Prod.fst).Nodup :=
  List.nodup_iff_count_le_one.mpr fun call => by
    have total := sound.settle_conserves few call
    have once := sound.count_le_one call
    omega

theorem Sound.unended_of_gone (sound : s.Sound) (few : s.fresh.length ≤ 1) {call : Nat}
    (gone : call ∉ s.unfinished) (outcome : Outcome) : (call, outcome) ∉ endings s.settle.2 := by
  intro ended
  have total := sound.settle_conserves few call
  have here : 0 < ((endings s.settle.2).map Prod.fst).count call :=
    List.count_pos_iff.mpr (List.mem_map_of_mem ended)
  have absent := List.count_eq_zero_of_not_mem gone
  omega

theorem Started.routed_subset {call : Nat} {ask : Ask} {es : List Effect}
    (started : s.Started call ask s' es) : s.routed ⊆ s'.routed := by
  cases started with
  | opened => rw [opened_eq]; exact List.Subset.refl _
  | routed => exact List.subset_append_left _ _
  | _ => exact List.Subset.refl _

theorem HandshakesRun.routed {es : List Effect} (run : s.HandshakesRun s' es) :
    s'.routed = s.routed := by
  cases run with
  | passed => rw [opened_eq]
  | _ => rfl

theorem Sound.ends_of_routed (sound : s.Sound) (few : s.fresh.length ≤ 1) {r : Routed}
    (member : r ∈ s.routed) (outcome : Outcome) :
    (r.call, outcome) ∈ endings s.settle.2 ↔
      ∃ reply, r.reply = some reply ∧ outcome = s.routedOutcome reply := by
  obtain ⟨s₁, es₁, es₂, started, sound₁, turns, effects⟩ := settle_steps sound few
  have kept : r ∈ s₁.routed ∧ s₁.backends.map Backend.name = s.backends.map Backend.name := by
    rcases started with ⟨-, rfl, -⟩ | ⟨call, ask, fresh, started⟩
    · exact ⟨member, rfl⟩
    · exact ⟨started.routed_subset member, ((Proceeds.starts fresh started).keeps sound).names⟩
  have total := sound.settle_conserves few r.call
  have once := sound.count_le_one r.call
  have ends {reply : Reply} (here : r.reply = some reply) :
      (r.call, s.routedOutcome reply) ∈ endings s.settle.2 := by
    rw [effects, endings_append, endings_append, endings_endRouted]
    refine List.mem_append_left _ (List.mem_append_right _ (List.mem_filterMap.mpr ⟨r, kept.1, ?_⟩))
    rw [here, Option.map_some, routedOutcome_congr kept.2]
  refine ⟨fun ended => ?_, fun ⟨reply, here, same⟩ => same ▸ ends here⟩
  have gone : 0 < ((endings s.settle.2).map Prod.fst).count r.call :=
    List.count_pos_iff.mpr (List.mem_map_of_mem ended)
  cases here : r.reply with
  | none =>
    -- without a reply the request stays, so its call cannot have ended
    have still : r ∈ s.settle.1.routed := by
      rw [turns.routed]
      exact List.mem_filter.mpr ⟨kept.1, by rw [here]; rfl⟩
    have stays := List.count_pos_iff.mpr (mem_unfinished_of_routed still)
    omega
  | some reply =>
    exact ⟨reply, rfl, congrArg Prod.snd
      (List.inj_on_of_nodup_map (sound.settle_distinct few) ended (ends here) rfl)⟩

/-- The reply that a request gets when a command acts. -/
inductive Gets (s s' : CallSide) (d : Ledger) (ref : RequestRef) : Reply → Prop
  | own {reply : Reply} (answered : (ref, reply) ∈ d.answers) : Gets s s' d ref reply
  | lost {method : String} {params : Json}
      (queued : .request ref.call method params ∈ s.queueAt ref.backend)
      (shut : s'.isOpen ref.backend = false) : Gets s s' d ref .dropped

theorem isOpen_of_queued (channels : ∀ b ∈ s.backends, b.IsChannel) {i : Nat} {m : Outbound}
    (queued : m ∈ s.queueAt i) : s.isOpen i = true := by
  rw [queueAt, queueIn] at queued
  rw [isOpen]
  cases here : s.backends[i]? with
  | none =>
    rw [here] at queued
    cases queued
  | some b =>
    rw [here] at queued
    change m ∈ b.queue at queued
    rw [Option.any_some]
    by_contra shut
    rw [(channels b (List.mem_of_getElem? here)).queue_of_closed (Bool.eq_false_iff.mpr shut)]
      at queued
    cases queued

theorem Gets.of_open {d : Ledger} (channels : ∀ b ∈ s.backends, b.IsChannel) {ref : RequestRef}
    (still : s.isOpen ref.backend = true → s'.isOpen ref.backend = true) {reply : Reply} :
    Gets s s' d ref reply ↔ (ref, reply) ∈ d.answers := by
  refine ⟨fun gets => ?_, .own⟩
  cases gets with
  | own answered => exact answered
  | lost queued shut =>
    rw [still (isOpen_of_queued channels queued)] at shut
    cases shut

theorem isOpen_modify (channels : ∀ b ∈ s.backends, b.IsChannel) {f : Backend → Backend}
    (kept : ∀ b, b.IsChannel → (f b).accepts = b.accepts) (index i : Nat) :
    (s.backends.modify index f)[i]?.any Backend.accepts = s.isOpen i := by
  rw [isOpen, List.getElem?_modify]
  cases here : s.backends[i]? with
  | none => rfl
  | some b =>
    have same := kept b (channels b (List.mem_of_getElem? here))
    by_cases at' : index = i <;> simp [at', same]

theorem mem_lost (channels : ∀ b ∈ s.backends, b.IsChannel) {index : Nat} {b : Backend}
    (here : s.backends[index]? = some b) (ref : RequestRef) :
    ref ∈ queuedRequests index b.queue ↔
      (∃ method params, .request ref.call method params ∈ s.queueAt ref.backend) ∧
        (s.backends.modify index .close)[ref.backend]?.any Backend.accepts = false := by
  obtain ⟨call, i⟩ := ref
  have requests : ⟨call, i⟩ ∈ queuedRequests index b.queue ↔
      index = i ∧ ∃ method params, .request call method params ∈ b.queue := by
    rw [queuedRequests, List.mem_filterMap]
    constructor
    · rintro ⟨m, member, found⟩
      cases m with
      | notification => cases found
      | request => cases found; exact ⟨rfl, _, _, member⟩
    · rintro ⟨rfl, method, params, member⟩
      exact ⟨_, member, rfl⟩
  rw [requests]
  by_cases same : index = i
  · subst same
    have shut := (channels b (List.mem_of_getElem? here)).accepts_close
    simp [queueAt, queueIn, here, shut]
  · refine iff_of_false (fun both => same both.1) fun lost => ?_
    obtain ⟨⟨_, _, queued⟩, shut⟩ := lost
    have kept : (s.backends.modify index .close)[i]? = s.backends[i]? := by
      rw [List.getElem?_modify]
      simp [same]
    rw [kept, ← isOpen, isOpen_of_queued channels queued] at shut
    cases shut

theorem reply_hearAll_of_none {r : Routed} (waits : r.reply = none) (refs : List RequestRef)
    (reply : Reply) :
    (r.hearAll refs reply).reply = if ⟨r.call, 0⟩ ∈ refs then some reply else none := by
  rw [Routed.hearAll_reply, waits]
  simp

theorem gets_closed (channels : ∀ b ∈ s.backends, b.IsChannel) {index : Nat} {b : Backend}
    (here : s.backends[index]? = some b) {r : Routed} (waits : r.reply = none) (reply : Reply) :
    (r.hearAll (queuedRequests index b.queue) .dropped).reply = some reply ↔
      Gets s { s.heard (queuedRequests index b.queue) .dropped with
        backends := s.backends.modify index .close } {} ⟨r.call, 0⟩ reply := by
  have lost := mem_lost channels here ⟨r.call, 0⟩
  rw [reply_hearAll_of_none waits]
  constructor
  · intro got
    split at got
    · rename_i queued
      cases got
      obtain ⟨⟨method, params, queued⟩, shut⟩ := lost.mp queued
      exact .lost queued shut
    · cases got
  · intro gets
    cases gets with
    | own answered => cases answered
    | lost queued shut => rw [if_pos (lost.mpr ⟨⟨_, _, queued⟩, shut⟩)]

/-- When a command acts, a routed request ends with its call, or it stays with the reply that it
    gets. -/
theorem Moved.gets {d : Ledger} (sound : s.Sound) (quiet : s.Quiet) (moved : s.Moved s' d)
    {r : Routed} (member : r ∈ s.routed) :
    ((r.call, .cancelled) ∈ d.ended ∧ r.call ∉ s'.unfinished ∧
      ∀ reply, ¬Gets s s' d ⟨r.call, 0⟩ reply) ∨
    (∀ outcome, (r.call, outcome) ∉ d.ended) ∧ ∃ r' ∈ s'.routed, r'.call = r.call ∧
      ∀ reply, r'.reply = some reply ↔ Gets s s' d ⟨r.call, 0⟩ reply := by
  have waits := quiet.routed r member
  have unheard {t : CallSide} {e : Ledger} (none : e.answers = [])
      (still : s.isOpen 0 = true → t.isOpen 0 = true) (reply : Reply) :
      ¬Gets s t e ⟨r.call, 0⟩ reply := by
    rw [Gets.of_open sound.channels still, none]
    exact List.not_mem_nil
  have stays {t : CallSide} {e : Ledger} (none : e.answers = [])
      (still : s.isOpen 0 = true → t.isOpen 0 = true) (here : r ∈ t.routed) :
      ∃ r' ∈ t.routed, r'.call = r.call ∧
        ∀ reply, r'.reply = some reply ↔ Gets s t e ⟨r.call, 0⟩ reply :=
    ⟨r, here, rfl, fun reply =>
      iff_of_false (by simp [waits]) (unheard none still reply)⟩
  have dequeued {index : Nat} : s.isOpen 0 = true →
      (s.backends.modify index .dequeue)[0]?.any Backend.accepts = true := fun here => by
    rw [isOpen_modify sound.channels (fun b channel => channel.accepts_dequeue), here]
  cases moved with
  | @cancelled call pending =>
    by_cases ours : r.call = call
    · subst ours
      refine .inl ⟨List.mem_singleton_self _, fun here => ?_, unheard rfl id⟩
      rw [unfinished_cancel, List.mem_filter] at here
      simp at here
    · refine .inr ⟨fun outcome ended => ?_, stays rfl id (List.mem_filter.mpr ⟨member, ?_⟩)⟩
      · cases List.mem_singleton.mp ended
        exact ours rfl
      · simpa using ours
  | tornDown =>
    exact .inl ⟨List.mem_map_of_mem (mem_unfinished_of_routed member), List.not_mem_nil,
      unheard rfl id⟩
  | noticed => exact .inr ⟨fun _ => List.not_mem_nil, stays rfl dequeued member⟩
  | taken => exact .inr ⟨fun _ => List.not_mem_nil, stays rfl dequeued member⟩
  | @answered ticket ref reply good =>
    refine .inr ⟨fun _ => List.not_mem_nil, r.hearAll [ref] reply, List.mem_map_of_mem member,
      (Routed.hearAll_call ..).1, fun reply' => ?_⟩
    have still : s.isOpen 0 = true → CallSide.isOpen
        { s.heard [ref] reply with tickets := s.tickets.set ticket none } 0 = true := id
    rw [reply_hearAll_of_none waits, Gets.of_open sound.channels still]
    simp [eq_comm]
  | @closed index b here accepting =>
    exact .inr ⟨fun _ => List.not_mem_nil, r.hearAll _ .dropped, List.mem_map_of_mem member,
      (Routed.hearAll_call ..).1, gets_closed sound.channels here waits⟩
  | _ => exact .inr ⟨fun _ => List.not_mem_nil, stays rfl id member⟩

end CallSide

end Switchboard.Mux
