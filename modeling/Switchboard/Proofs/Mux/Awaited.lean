import Switchboard.Proofs.Mux.Gating
import Switchboard.Proofs.Mux.Line

namespace Switchboard.Mux

namespace CallSide

def awaited (s : CallSide) : List RequestRef :=
  (s.attempt.map fun a => a.running.map fun i => ⟨a.call, i⟩).getD [] ++
    (s.routed.filter fun r => r.reply.isNone).map fun r => ⟨r.call, 0⟩

def queued (s : CallSide) : List RequestRef :=
  (List.range s.backends.length).flatMap fun i =>
    queuedRequests i ((s.backends[i]?.bind Backend.outbound?).getD [])

/-- The requests that can be answered, in a queue or in a peer's hands, for calls that have not
    ended. -/
def outstanding (s : CallSide) : List RequestRef :=
  (s.queued ++ s.tickets.filterMap id).filter fun ref => s.unfinished.contains ref.call

variable {s : CallSide}

theorem mem_awaited {ref : RequestRef} : ref ∈ s.awaited ↔ s.awaits ref = true := by
  obtain ⟨call, backend⟩ := ref
  rw [awaited, awaits, List.mem_append, Bool.or_eq_true]
  refine or_congr ?_ ?_
  · cases s.attempt with
    | none => simp
    | some a =>
      simp only [Option.map_some, Option.getD_some, List.mem_map, RequestRef.mk.injEq,
        Option.any_some, Attempt.awaits_iff]
      constructor
      · rintro ⟨i, running, rfl, rfl⟩
        exact ⟨rfl, running⟩
      · rintro ⟨rfl, running⟩
        exact ⟨backend, running, rfl, rfl⟩
  · simp only [List.mem_map, List.mem_filter, Option.isNone_iff_eq_none, RequestRef.mk.injEq,
      List.any_eq_true, Routed.awaits, Bool.and_eq_true, beq_iff_eq]
    constructor
    · rintro ⟨r, ⟨member, waits⟩, rfl, rfl⟩
      exact ⟨r, member, ⟨rfl, rfl⟩, waits⟩
    · rintro ⟨r, member, ⟨rfl, rfl⟩, waits⟩
      exact ⟨r, ⟨member, waits⟩, rfl, rfl⟩

theorem mem_awaited_of_running {a : Attempt} (held : s.attempt = some a) {i : Nat}
    (running : i ∈ a.running) : ⟨a.call, i⟩ ∈ s.awaited := by
  refine List.mem_append_left _ ?_
  rw [held]
  exact List.mem_map_of_mem running

theorem mem_awaited_of_routed {r : Routed} (member : r ∈ s.routed) (waits : r.reply = none) :
    ⟨r.call, 0⟩ ∈ s.awaited := by
  refine List.mem_append_right _ (List.mem_map.mpr ⟨r, List.mem_filter.mpr ⟨member, ?_⟩, rfl⟩)
  rw [waits]
  rfl

theorem Sound.routed_nodup (sound : s.Sound) : (s.routed.map Routed.call).Nodup := by
  have distinct := sound.distinct
  rw [unfinished_eq, line] at distinct
  exact distinct.sublist (((List.sublist_append_right _ _).trans
    (List.sublist_append_left _ _)).trans (List.sublist_append_left _ _))

theorem Sound.awaited_nodup (sound : s.Sound) : s.awaited.Nodup := by
  refine List.nodup_append.mpr ⟨?_, ?_, fun ref held r routes same => ?_⟩
  · cases held : s.attempt with
    | none => exact List.nodup_nil
    | some a =>
      refine (sound.attempt_wellFormed a held).running_nodup.map fun i j same => ?_
      exact (RequestRef.mk.inj same).2
  · have injective : Function.Injective fun call : Nat => (⟨call, 0⟩ : RequestRef) :=
      fun c d same => (RequestRef.mk.inj same).1
    have fewer : ((s.routed.filter fun r => r.reply.isNone).map Routed.call).Nodup :=
      sound.routed_nodup.sublist (List.filter_sublist.map _)
    have all := fewer.map injective
    rwa [List.map_map] at all
  · cases turn : s.attempt with
    | none => rw [turn] at held; cases held
    | some a =>
      -- no request is routed while a handshake is under way
      have uninitialized := (sound.turns (.inl (by simp [turn]))).1
      rw [sound.unrouted uninitialized] at routes
      cases routes

theorem Sound.awaited_cases (sound : s.Sound) {ref : RequestRef} (member : ref ∈ s.awaited) :
    (∃ a, s.attempt = some a ∧ a.awaits ref = true ∧ s.routed = []) ∨
      ∃ r ∈ s.routed, ref = ⟨r.call, 0⟩ := by
  rcases Bool.or_eq_true_iff.mp (mem_awaited.mp member) with held | routes
  · obtain ⟨a, turn, waits⟩ := (Option.any_eq_true ..).mp held
    exact .inl ⟨a, turn, waits, sound.unrouted (sound.turns (.inl (by simp [turn]))).1⟩
  · obtain ⟨r, routed, waits⟩ := List.any_eq_true.mp routes
    simp only [Routed.awaits, Bool.and_eq_true, beq_iff_eq] at waits
    obtain ⟨⟨same, first⟩, -⟩ := waits
    exact .inr ⟨r, routed, by rw [same, ← first]⟩

theorem count_queuedRequests (index : Nat) (queue : List Outbound) (ref : RequestRef) :
    (queuedRequests index queue).count ref =
      if ref.backend = index then queue.countP (·.isOf ref.call) else 0 := by
  obtain ⟨call, backend⟩ := ref
  induction queue with
  | nil => simp [queuedRequests]
  | cons m rest ih =>
    cases m with
    | notification method params => simpa [queuedRequests, Outbound.isOf] using ih
    | request c method params =>
      simp only [queuedRequests, List.filterMap_cons, List.countP_cons] at ih ⊢
      rw [List.count_cons, ih]
      by_cases here : backend = index
      · simp [here, Outbound.isOf]
      · simp [here, Ne.symm here]

theorem count_flatMap_range {α : Type} [DecidableEq α] (f : Nat → List α) (a : α) (j n : Nat)
    (none : ∀ i, i ≠ j → (f i).count a = 0) :
    ((List.range n).flatMap f).count a = if j < n then (f j).count a else 0 := by
  induction n with
  | zero => rfl
  | succ n ih =>
    rw [List.range_succ, List.flatMap_append, List.count_append, ih, List.flatMap_singleton]
    rcases Nat.lt_trichotomy j n with less | rfl | more
    · rw [if_pos less, if_pos (by omega), none n (by omega), Nat.add_zero]
    · rw [if_neg (Nat.lt_irrefl _), if_pos (by omega), Nat.zero_add]
    · rw [if_neg (by omega), if_neg (by omega), none n (by omega)]

theorem count_queued (channels : ∀ b ∈ s.backends, b.IsChannel) (ref : RequestRef) :
    s.queued.count ref + (s.tickets.filterMap id).count ref = s.copies ref := by
  have tickets : (s.tickets.filterMap id).count ref = s.tickets.count (some ref) := by
    induction s.tickets with
    | nil => rfl
    | cons ticket rest ih =>
      cases ticket with
      | none => simpa using ih
      | some r =>
        have first : (some r :: rest).filterMap id = r :: rest.filterMap id := rfl
        rw [first, List.count_cons, List.count_cons, ih]
        simp
  rw [queued, count_flatMap_range _ ref ref.backend _ fun i other => ?_, tickets, copies,
    count_queuedRequests, if_pos rfl]
  · congr 1
    cases here : s.backends[ref.backend]? with
    | none =>
      rw [if_neg (Nat.not_lt_of_le (List.getElem?_eq_none_iff.mp here))]
      rfl
    | some b =>
      have channel := channels b (List.mem_of_getElem? here)
      rw [if_pos (List.getElem?_eq_some_iff.mp here).1, Option.bind_some, channel.outbound?_eq]
      cases accepting : b.accepts with
      | true => rfl
      | false =>
        simp [Backend.requestsOf, channel.queue_of_closed accepting]
  · rw [count_queuedRequests, if_neg (Ne.symm other)]

theorem mem_outstanding (channels : ∀ b ∈ s.backends, b.IsChannel) {ref : RequestRef} :
    ref ∈ s.outstanding ↔ 0 < s.copies ref ∧ ref.call ∈ s.unfinished := by
  rw [outstanding, List.mem_filter, List.contains_iff_mem, ← count_queued channels,
    ← List.count_append, List.count_pos_iff]

theorem Sound.outstanding_nodup (sound : s.Sound) : s.outstanding.Nodup := by
  refine List.Nodup.filter _ (List.nodup_iff_count_le_one.mpr fun ref => ?_)
  rw [List.count_append, count_queued sound.channels]
  exact sound.single ref

theorem Sound.of_awaits (sound : s.Sound) {ref : RequestRef} (awaited : s.awaits ref = true) :
    0 < s.copies ref ∧ ref.call ∈ s.unfinished := by
  obtain ⟨call, backend⟩ := ref
  rw [unfinished_eq, line]
  rcases Bool.or_eq_true_iff.mp awaited with held | routed
  · cases turn : s.attempt with
    | none =>
      rw [turn] at held
      cases held
    | some a =>
      rw [turn, Option.any_some] at held
      obtain ⟨rfl, running⟩ := Attempt.awaits_iff.mp held
      exact ⟨(sound.attempt_running a turn backend).mp running, by simp⟩
  · obtain ⟨r, member, awaited⟩ := List.any_eq_true.mp routed
    simp only [Routed.awaits, Bool.and_eq_true, beq_iff_eq, Option.isNone_iff_eq_none] at awaited
    obtain ⟨⟨rfl, rfl⟩, waits⟩ := awaited
    have routed : r.call ∈ s.routed.map Routed.call := List.mem_map_of_mem member
    exact ⟨(sound.routed_waits r member).mp waits, by simp [routed]⟩

end CallSide

namespace Session

variable {names : List String} {settings : Settings} {commands : List Command}

theorem asked_of_copies {ref : RequestRef}
    (some : 0 < (reached names settings commands).copies ref) :
    ∃ method params, (ref.call, .request method params) ∈ (record names settings commands).issued ∧
      (0 < ref.backend → method = handshakeMethod) := by
  obtain ⟨sound, quiet⟩ := reached_sound names settings commands
  obtain ⟨recorded, -⟩ := reached_recorded names settings commands
  obtain ⟨queued, taken⟩ := @accepted_of_taken names settings commands
  obtain ⟨method, params, issued, accepted⟩ : ∃ method params,
      (ref.call, .request method params) ∈ (record names settings commands).issued ∧
        .request ref.call method params ∈
          (ofNames names settings).accepted ref.backend commands := by
    rcases CallSide.answerable_of_copies sound.channels some with
      ⟨b, here, -, method, params, member⟩ | ⟨ticket, good⟩
    · refine ⟨method, params, ?_, queued ref.backend ?_⟩
      · exact recorded.traced.queued ⟨b, List.mem_of_getElem? here, member⟩
      · rw [CallSide.queueAt, queueIn, here]
        exact member
    · obtain ⟨method, params, member⟩ := recorded.traced.held ref (CallSide.mem_tickets good)
      exact ⟨method, params, recorded.traced.taken member, taken ref method params member⟩
  refine ⟨method, params, issued, fun beyond => ?_⟩
  obtain ⟨handshakes, rest, traffic⟩ := traffic names settings commands ref.backend
  rw [traffic.whole] at accepted
  rcases List.mem_append.mp accepted with first | later
  · obtain ⟨w, -, same⟩ := List.mem_map.mp first
    exact (Outbound.request.inj same).2.1.symm
  · obtain ⟨_, _, same⟩ := traffic.noticed beyond _ later
    cases same

theorem routed_of_live {call : Nat} {method : String} {params : Json}
    (issued : (call, .request method params) ∈ (record names settings commands).issued)
    (other : isHandshake method = false)
    (live : call ∈ (reached names settings commands).unfinished) :
    ∃ r ∈ (reached names settings commands).routed, r.call = call := by
  obtain ⟨sound, quiet⟩ := reached_sound names settings commands
  obtain ⟨recorded, -⟩ := reached_recorded names settings commands
  rw [CallSide.unfinished_eq, quiet.fresh, sound.stalled] at live
  simp only [List.map_nil, List.nil_append, List.append_nil, List.mem_append, List.mem_map] at live
  rcases live with (inLine | ⟨r, member, same⟩) | watches
  · obtain ⟨handshake, -⟩ :=
      Ledger.mem_pending.mp ((recorded.mem_line_iff sound quiet.fresh).mp inLine)
    obtain ⟨p, asked⟩ := Ledger.mem_handshakes.mp handshake
    cases recorded.ask_unique issued asked
    cases other
  · exact ⟨r, member, same⟩
  · cases recorded.ask_unique issued (recorded.accounts.asked.watchers call watches)

theorem awaits_of_copies {ref : RequestRef}
    (some : 0 < (reached names settings commands).copies ref)
    (live : ref.call ∈ (reached names settings commands).unfinished) :
    (reached names settings commands).awaits ref = true := by
  obtain ⟨sound, quiet⟩ := reached_sound names settings commands
  obtain ⟨recorded, -⟩ := reached_recorded names settings commands
  obtain ⟨method, params, issued, beyond⟩ := asked_of_copies some
  obtain ⟨call, backend⟩ := ref
  refine Bool.or_eq_true_iff.mpr ?_
  cases handshake : isHandshake method with
  | true =>
    rw [Asked.handshake_eq handshake] at issued
    rcases List.mem_append.mp (recorded.mem_line sound issued live quiet.fresh) with turn | waits
    · obtain ⟨a, held, rfl⟩ := Option.map_eq_some_iff.mp (Option.mem_toList.mp turn)
      have running := (sound.attempt_running a held backend).mpr some
      exact .inl (by rw [held, Option.any_some, Attempt.awaits_iff]; exact ⟨rfl, running⟩)
    · have none := sound.no_copies_of_unstarted (List.mem_append_right _ waits) backend
      exact absurd some (by rw [none]; exact Nat.lt_irrefl 0)
  | false =>
    obtain ⟨r, member, rfl⟩ := routed_of_live issued handshake live
    have first : backend = 0 := by
      by_contra other
      rw [beyond (Nat.pos_of_ne_zero other)] at handshake
      cases handshake
    refine .inr (List.any_eq_true.mpr ⟨r, member, ?_⟩)
    simp [Routed.awaits, first, quiet.routed r member]

/-- Every request that is waited for can be answered, and the other way round. -/
theorem outstanding_perm :
    (reached names settings commands).outstanding.Perm
      (reached names settings commands).awaited := by
  obtain ⟨sound, -⟩ := reached_sound names settings commands
  refine (List.perm_ext_iff_of_nodup sound.outstanding_nodup sound.awaited_nodup).mpr fun ref => ?_
  rw [CallSide.mem_outstanding sound.channels, CallSide.mem_awaited]
  exact ⟨fun ⟨copies, live⟩ => awaits_of_copies copies live, sound.of_awaits⟩

end Session

end Switchboard.Mux
