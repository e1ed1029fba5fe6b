import Switchboard.Proofs.Mux.Moves
import Switchboard.Proofs.Mux.SoundStarts

namespace Switchboard.Mux

namespace Attempt

variable {a : Attempt} {n : Nat}

theorem awaits_iff {ref : RequestRef} :
    a.awaits ref = true ↔ a.call = ref.call ∧ ref.backend ∈ a.running := by
  simp [awaits]

theorem hear_call (a : Attempt) (ref : RequestRef) (reply : Reply) :
    (a.hear ref reply).call = a.call := by
  unfold hear
  split <;> rfl

theorem WellFormed.hear (wf : a.WellFormed n) (ref : RequestRef) (reply : Reply) :
    (a.hear ref reply).WellFormed n := by
  unfold Attempt.hear
  split
  · rename_i awaited
    exact wf.arrive (awaits_iff.mp awaited).2 reply
  · exact wf

theorem WellFormed.got_hear (wf : a.WellFormed n) (ref : RequestRef) (reply : Reply) (i : Nat) :
    (a.hear ref reply).got i =
      if i ∈ a.running ∧ ref = ⟨a.call, i⟩ then some reply else a.got i := by
  unfold Attempt.hear
  obtain ⟨call, backend⟩ := ref
  by_cases awaited : a.awaits ⟨call, backend⟩ = true
  · obtain ⟨rfl, running⟩ := awaits_iff.mp awaited
    rw [if_pos awaited, got_arrive wf running]
    by_cases same : i = backend
    · subst same
      simp [show i ∈ a.running from running]
    · simp [same, Ne.symm same]
  · rw [if_neg awaited, if_neg]
    rintro ⟨running, same⟩
    cases same
    exact awaited (awaits_iff.mpr ⟨rfl, running⟩)

theorem WellFormed.mem_running_hear (wf : a.WellFormed n) (ref : RequestRef) (reply : Reply)
    (i : Nat) : i ∈ (a.hear ref reply).running ↔ i ∈ a.running ∧ ref ≠ ⟨a.call, i⟩ := by
  rw [(wf.hear ref reply).mem_running, wf.got_hear]
  by_cases heard : i ∈ a.running ∧ ref = ⟨a.call, i⟩
  · simp [heard]
  · rw [if_neg heard, ← wf.mem_running]
    exact ⟨fun running => ⟨running, fun same => heard ⟨running, same⟩⟩, And.left⟩

theorem hearAll_call (a : Attempt) (refs : List RequestRef) (reply : Reply) :
    (a.hearAll refs reply).call = a.call := by
  induction refs generalizing a with
  | nil => rfl
  | cons ref rest ih => exact (ih (a.hear ref reply)).trans (hear_call a ref reply)

theorem WellFormed.hearAll (wf : a.WellFormed n) (refs : List RequestRef) (reply : Reply) :
    (a.hearAll refs reply).WellFormed n := by
  induction refs generalizing a with
  | nil => exact wf
  | cons ref rest ih => exact ih (wf.hear ref reply)

theorem WellFormed.got_hearAll (wf : a.WellFormed n) (refs : List RequestRef) (reply : Reply)
    (i : Nat) : (a.hearAll refs reply).got i =
      if i ∈ a.running ∧ ⟨a.call, i⟩ ∈ refs then some reply else a.got i := by
  induction refs generalizing a with
  | nil => simp [Attempt.hearAll]
  | cons ref rest ih =>
    have later := ih (wf.hear ref reply)
    simp only [wf.mem_running_hear, wf.got_hear, hear_call] at later
    refine later.trans ?_
    by_cases running : i ∈ a.running
    · by_cases here : ref = ⟨a.call, i⟩
      · simp [running, here]
      · simp [running, here, Ne.symm here]
    · simp [running]

theorem WellFormed.mem_running_hearAll (wf : a.WellFormed n) (refs : List RequestRef)
    (reply : Reply) (i : Nat) :
    i ∈ (a.hearAll refs reply).running ↔ i ∈ a.running ∧ ⟨a.call, i⟩ ∉ refs := by
  rw [(wf.hearAll refs reply).mem_running, wf.got_hearAll]
  by_cases heard : i ∈ a.running ∧ ⟨a.call, i⟩ ∈ refs
  · simp [heard]
  · rw [if_neg heard, ← wf.mem_running]
    exact ⟨fun running => ⟨running, fun member => heard ⟨running, member⟩⟩, And.left⟩

end Attempt

namespace Routed

theorem hear_call (r : Routed) (ref : RequestRef) (reply : Reply) :
    (r.hear ref reply).call = r.call ∧ (r.hear ref reply).method = r.method := by
  unfold hear
  split <;> exact ⟨rfl, rfl⟩

theorem hear_reply (r : Routed) (ref : RequestRef) (reply : Reply) :
    (r.hear ref reply).reply =
      if r.reply = none ∧ ref = ⟨r.call, 0⟩ then some reply else r.reply := by
  obtain ⟨call, backend⟩ := ref
  unfold hear awaits
  cases here : r.reply with
  | none =>
    by_cases same : r.call = call ∧ backend = 0
    · simp [same]
    · have other : ¬(call = r.call ∧ backend = 0) := fun e => same ⟨e.1.symm, e.2⟩
      simp [same, other, here]
  | some old => simp [here]

theorem hearAll_call (r : Routed) (refs : List RequestRef) (reply : Reply) :
    (r.hearAll refs reply).call = r.call ∧ (r.hearAll refs reply).method = r.method := by
  induction refs generalizing r with
  | nil => exact ⟨rfl, rfl⟩
  | cons ref rest ih =>
    obtain ⟨call, method⟩ := ih (r.hear ref reply)
    exact ⟨call.trans (hear_call ..).1, method.trans (hear_call ..).2⟩

theorem hearAll_reply (r : Routed) (refs : List RequestRef) (reply : Reply) :
    (r.hearAll refs reply).reply =
      if r.reply = none ∧ ⟨r.call, 0⟩ ∈ refs then some reply else r.reply := by
  induction refs generalizing r with
  | nil => simp [hearAll]
  | cons ref rest ih =>
    have later := ih (r.hear ref reply)
    simp only [hear_reply, (hear_call ..).1] at later
    refine later.trans ?_
    by_cases here : ref = ⟨r.call, 0⟩
    · cases r.reply <;> simp [here]
    · simp [here, Ne.symm here]

end Routed

namespace CallSide

variable {s : CallSide}

theorem calls_heard (s : CallSide) (refs : List RequestRef) (reply : Reply) :
    (s.heard refs reply).attempt.map Attempt.call = s.attempt.map Attempt.call ∧
      (s.heard refs reply).routed.map Routed.call = s.routed.map Routed.call := by
  constructor
  · simp only [heard, Option.map_map]
    exact Option.map_congr fun a _ => Attempt.hearAll_call a refs reply
  · simp only [heard, List.map_map]
    exact List.map_congr_left fun r _ => (Routed.hearAll_call r refs reply).1

theorem unfinished_heard (s : CallSide) (refs : List RequestRef) (reply : Reply) :
    (s.heard refs reply).unfinished = s.unfinished := by
  rw [unfinished, (calls_heard ..).1, (calls_heard ..).2]
  rfl

theorem count_issue (s : CallSide) (ask : Ask) (c : Nat) :
    (s.issue ask).1.unfinished.count c = s.unfinished.count c + [s.nextCall].count c := by
  rw [count_unfinished, count_unfinished]
  simp only [issue, unstarted, List.map_append, List.map_cons, List.map_nil, List.count_append]
  omega

theorem names_modify {f : Backend → Backend} (kept : ∀ b, (f b).name = b.name)
    (bs : List Backend) (index : Nat) :
    (bs.modify index f).map Backend.name = bs.map Backend.name := by
  refine List.ext_getElem? fun i => ?_
  simp only [List.getElem?_map, List.getElem?_modify]
  cases bs[i]? with
  | none => rfl
  | some b => by_cases same : index = i <;> simp [same, kept]

namespace Sound

theorem heard (sound : s.Sound) {refs : List RequestRef} (reply : Reply) {bs : List Backend}
    {tickets : List (Option RequestRef)} (channels : ∀ b ∈ bs, b.IsChannel)
    (names : bs.map Backend.name = s.backends.map Backend.name)
    (copies : ∀ ref, ({ s with backends := bs, tickets } : CallSide).copies ref =
      if ref ∈ refs then 0 else s.copies ref) :
    Sound { s.heard refs reply with backends := bs, tickets } := by
  have length : bs.length = s.backends.length := by simpa using congrArg List.length names
  have same : ({ s.heard refs reply with backends := bs, tickets } : CallSide).unfinished =
      s.unfinished := unfinished_heard s refs reply
  have total (ref : RequestRef) :
      ({ s.heard refs reply with backends := bs, tickets } : CallSide).copies ref =
        if ref ∈ refs then 0 else s.copies ref := copies ref
  -- the requests that are heard have no copy left, and all others keep theirs
  have left (ref : RequestRef) :
      0 < ({ s.heard refs reply with backends := bs, tickets } : CallSide).copies ref ↔
        0 < s.copies ref ∧ ref ∉ refs := by
    rw [total]
    by_cases member : ref ∈ refs <;> simp [member]
  have line : (s.heard refs reply).attempt ≠ none ↔ s.attempt ≠ none := by
    simp [CallSide.heard]
  exact {
    channels
    numbered := same ▸ sound.numbered
    distinct := same ▸ sound.distinct
    requested := fun ref positive => by
      obtain ⟨bound, started, inRange⟩ := sound.requested ref ((left ref).mp positive).1
      exact ⟨bound, started, by rwa [← length] at inRange⟩
    single := fun ref => by
      rw [total]
      have single := sound.single ref
      split <;> omega
    turns := fun inLine => (sound.turns (inLine.imp_left line.mp)).imp_right fun some => by
      rwa [← List.length_pos_iff, length, List.length_pos_iff]
    attempt_wellFormed := fun a held => by
      obtain ⟨a', held', rfl⟩ := Option.map_eq_some_iff.mp held
      dsimp only
      rw [length]
      exact (sound.attempt_wellFormed a' held').hearAll refs reply
    attempt_running := fun a held i => by
      obtain ⟨a', held', rfl⟩ := Option.map_eq_some_iff.mp held
      rw [left, (sound.attempt_wellFormed a' held').mem_running_hearAll, Attempt.hearAll_call,
        sound.attempt_running a' held']
    routed_initialized := fun some => sound.routed_initialized fun none => some (by
      simp only [CallSide.heard, none, List.map_nil])
    routed_waits := fun r member => by
      obtain ⟨r', member', rfl⟩ := List.mem_map.mp member
      rw [left, Routed.hearAll_reply, (Routed.hearAll_call ..).1, ← sound.routed_waits r' member']
      by_cases heard : ⟨r'.call, 0⟩ ∈ refs
      · cases r'.reply <;> simp [heard]
      · simp [heard]
    watchers_uninitialized := sound.watchers_uninitialized
    stalled := sound.stalled
    agents := fun agents initialized => names.symm ▸ sound.agents agents initialized }

theorem issued (sound : s.Sound) (ask : Ask) : (s.issue ask).1.Sound := by
  have new : s.nextCall ∉ s.unfinished := fun member => Nat.lt_irrefl _ (sound.numbered _ member)
  exact { sound with
    numbered := fun c member => by
      have positive := List.count_pos_iff.mpr member
      rw [count_issue] at positive
      change c < s.nextCall + 1
      by_cases old : c ∈ s.unfinished
      · exact Nat.lt_succ_of_lt (sound.numbered c old)
      · rw [List.count_eq_zero_of_not_mem old, Nat.zero_add, List.count_pos_iff,
          List.mem_singleton] at positive
        omega
    distinct := List.nodup_iff_count_le_one.mpr fun c => by
      rw [count_issue]
      have before := sound.count_le_one c
      by_cases same : c = s.nextCall
      · rw [same, List.count_eq_zero_of_not_mem new]
        simp
      · have other : c ∉ [s.nextCall] := by simpa using same
        rw [List.count_eq_zero_of_not_mem other, Nat.add_zero]
        exact before
    requested := fun ref positive => by
      obtain ⟨bound, started, inRange⟩ := sound.requested ref positive
      refine ⟨Nat.lt_succ_of_lt bound, fun member => ?_, inRange⟩
      simp only [issue, unstarted, List.map_append, List.map_cons, List.map_nil, List.mem_append,
        List.mem_singleton] at member started
      rcases member with (old | same) | old
      · exact started (.inl old)
      · exact Nat.lt_irrefl _ (same ▸ bound)
      · exact started (.inr old) }

theorem moved (sound : s.Sound) {s' : CallSide} {d : Ledger} (moved : s.Moved s' d) :
    s'.Sound := by
  have channels {f : Backend → Backend} (kept : ∀ b, b.IsChannel → (f b).IsChannel)
      (index : Nat) : ∀ b ∈ s.backends.modify index f, b.IsChannel := by
    intro b' member
    obtain ⟨i, bound, rfl⟩ := List.getElem_of_mem member
    rw [List.getElem_modify]
    have channel := sound.channels _ (List.getElem_mem (by simpa using bound))
    split
    · exact kept _ channel
    · exact channel
  cases moved with
  | rest => exact sound
  | issued ask => exact sound.issued ask
  | cancelled pending =>
    exact sound.shrink List.filter_sublist (fun a held => (Option.filter_eq_some_iff.mp held).1)
      List.filter_sublist List.filter_sublist List.filter_sublist List.filter_sublist
  | @noticed index b method params rest here accepting queue =>
    have channel := sound.channels b (List.mem_of_getElem? here)
    refine sound.restock (channels (fun _ => Backend.IsChannel.dequeue) index)
      (names_modify Backend.name_dequeue s.backends index) fun ref => ?_
    have left := copies_dequeue here channel queue ref
    simpa only [Outbound.isOf, Bool.false_eq_true, and_false, if_false, Nat.add_zero] using left
  | @taken index b call method params rest here accepting queue =>
    have channel := sound.channels b (List.mem_of_getElem? here)
    exact sound.restock (channels (fun _ => Backend.IsChannel.dequeue) index)
      (names_modify Backend.name_dequeue s.backends index) (copies_taken here channel queue)
  | @answered ticket ref reply good =>
    refine sound.heard reply sound.channels rfl fun r => ?_
    have total := copies_answer good reply r
    have single := sound.single r
    change (s.answer ticket ref reply).copies r = _
    simp only [List.mem_singleton]
    split at total <;> split <;> first | omega | contradiction
  | @closed index b here accepting =>
    have channel := sound.channels b (List.mem_of_getElem? here)
    refine sound.heard .dropped (channels (fun _ => Backend.IsChannel.close) index)
      (names_modify Backend.name_close s.backends index) fun ref => ?_
    have single := sound.single ref
    refine (copies_close here channel ref).trans ?_
    by_cases same : ref.backend = index
    · rw [copies_of_backend (same ▸ here)] at single ⊢
      simp only [mem_queuedRequests, same, true_and, if_true, Backend.requestsOf] at single ⊢
      split <;> omega
    · simp only [mem_queuedRequests, same, false_and, if_false]
  | tornDown =>
    exact sound.shrink (List.nil_sublist _) (fun _ held => by cases held) (List.nil_sublist _)
      (List.nil_sublist _) (List.nil_sublist _) (List.nil_sublist _)

end Sound

end CallSide

end Switchboard.Mux
