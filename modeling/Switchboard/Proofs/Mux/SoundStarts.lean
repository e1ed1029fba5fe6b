import Switchboard.Proofs.Mux.Sound
import Switchboard.Proofs.Mux.Starts

namespace Switchboard.Mux

namespace CallSide

namespace Sound

variable {s : CallSide}

theorem relist (sound : s.Sound) {fresh : List (Nat × Ask)} {waiting : List (Nat × Json)}
    {watchers : List Nat}
    (count : ∀ c, ({ s with fresh, waiting, watchers } : CallSide).unfinished.count c ≤
      s.unfinished.count c)
    (waits : ∀ c ∈ fresh.map Prod.fst ++ waiting.map Prod.fst, c ∈ s.unstarted)
    (turns : waiting ≠ [] → s.phase = .uninitialized ∧ s.backends ≠ [])
    (watched : watchers ≠ [] → s.phase = .uninitialized) :
    Sound { s with fresh, waiting, watchers } :=
  { sound with
    numbered := (sound.fewer count).1
    distinct := (sound.fewer count).2
    requested := fun ref positive => by
      obtain ⟨bound, started, inRange⟩ := sound.requested ref positive
      exact ⟨bound, fun member => started (waits _ member), inRange⟩
    turns := fun line => line.elim (fun held => sound.turns (.inl held)) turns
    watchers_uninitialized := watched }

theorem restock (sound : s.Sound) {bs : List Backend} {tickets : List (Option RequestRef)}
    (channels : ∀ b ∈ bs, b.IsChannel) (names : bs.map Backend.name = s.backends.map Backend.name)
    (copies : ∀ ref, ({ s with backends := bs, tickets } : CallSide).copies ref = s.copies ref) :
    Sound { s with backends := bs, tickets } := by
  have length : bs.length = s.backends.length := by simpa using congrArg List.length names
  exact { sound with
    channels
    requested := fun ref positive => by
      rw [copies] at positive
      dsimp only
      rw [length]
      exact sound.requested ref positive
    single := fun ref => by
      rw [copies]
      exact sound.single ref
    turns := fun line => (sound.turns line).imp_right fun some => by
      rwa [← List.length_pos_iff, length, List.length_pos_iff]
    attempt_wellFormed := fun a held => by
      dsimp only
      rw [length]
      exact sound.attempt_wellFormed a held
    attempt_running := fun a held i => by
      rw [copies]
      exact sound.attempt_running a held i
    routed_waits := fun r member => by
      rw [copies]
      exact sound.routed_waits r member
    agents := fun agents initialized => by
      rw [names]
      exact sound.agents agents initialized }

theorem route (sound : s.Sound) {call : Nat} {ask : Ask} (fresh : s.fresh = [(call, ask)])
    (initialized : s.phase.isInitialized = true) {b : Backend} {rest : List Backend}
    (some : s.backends = b :: rest) (method : String) (params : Json) :
    Sound { s with
      fresh := []
      backends := (b.request call method params).1 :: rest
      routed := s.routed ++ [⟨call, method, (b.request call method params).2⟩] } := by
  have waits := mem_unstarted_of_fresh fresh
  have unrequested := sound.no_copies_of_unstarted waits
  have channel : b.IsChannel := sound.channels b (some ▸ List.mem_cons_self)
  -- once the handshake is published nobody waits for a turn
  have settled : ¬(s.attempt ≠ none ∨ s.waiting ≠ []) := fun line => by
    rw [(sound.turns line).1] at initialized
    cases initialized
  have copies := copies_route some channel call method params
  have count (c : Nat) : ({ s with
      fresh := []
      backends := (b.request call method params).1 :: rest
      routed := s.routed ++ [⟨call, method, (b.request call method params).2⟩] } :
        CallSide).unfinished.count c = s.unfinished.count c := by
    rw [count_unfinished, count_unfinished, unstarted, unstarted, fresh]
    simp only [List.map_append, List.map_cons, List.map_nil, List.nil_append, List.count_append]
    omega
  have different {r : Routed} (member : r ∈ s.routed) : r.call ≠ call := by
    rintro rfl
    have total := sound.count_le_one r.call
    have once := List.count_pos_iff.mpr waits
    have again := List.count_pos_iff.mpr (List.mem_map_of_mem (f := Routed.call) member)
    rw [count_unfinished] at total
    omega
  exact {
    channels := List.forall_mem_cons.mpr ⟨channel.request .., fun b' member =>
      sound.channels b' (some ▸ List.mem_cons_of_mem b member)⟩
    numbered := (sound.fewer fun c => Nat.le_of_eq (count c)).1
    distinct := (sound.fewer fun c => Nat.le_of_eq (count c)).2
    requested := fun ref positive => by
      have total := copies ref
      by_cases before : 0 < s.copies ref
      · obtain ⟨bound, started, inRange⟩ := sound.requested ref before
        rw [some] at inRange
        exact ⟨bound, fun member => started (List.mem_append_right _ member), inRange⟩
      · by_cases new : b.accepts = true ∧ ref = ⟨call, 0⟩
        · obtain ⟨-, rfl⟩ := new
          refine ⟨sound.numbered _ (mem_unfinished_of_unstarted waits), fun member => ?_,
            Nat.zero_lt_succ _⟩
          rw [unstarted, List.map_nil, List.nil_append] at member
          exact settled (.inr fun empty => by rw [empty] at member; cases member)
        · rw [if_neg new] at total
          change 0 < ({ s with backends := _ } : CallSide).copies ref at positive
          omega
    single := fun ref => by
      have total := copies ref
      change ({ s with backends := _ } : CallSide).copies ref ≤ 1
      by_cases new : b.accepts = true ∧ ref = ⟨call, 0⟩
      · have none := unrequested 0
        rw [if_pos new] at total
        rw [← new.2] at none
        omega
      · have before := sound.single ref
        rw [if_neg new] at total
        omega
    turns := fun line => absurd line settled
    attempt_wellFormed := fun a held =>
      absurd (.inl fun none => by rw [none] at held; cases held) settled
    attempt_running := fun a held =>
      absurd (.inl fun none => by rw [none] at held; cases held) settled
    routed_initialized := fun _ => initialized
    routed_waits := fun r member => by
      have total := copies ⟨r.call, 0⟩
      change r.reply = none ↔ 0 < ({ s with backends := _ } : CallSide).copies ⟨r.call, 0⟩
      rw [total]
      rcases List.mem_append.mp member with member | member
      · rw [if_neg fun new => different member (RequestRef.mk.inj new.2).1, Nat.add_zero]
        exact sound.routed_waits r member
      · rw [List.mem_singleton.mp member, unrequested 0, (channel.request_eq ..).1]
        cases b.accepts <;> simp
    watchers_uninitialized := sound.watchers_uninitialized
    stalled := sound.stalled
    agents := fun agents published => by
      have names := sound.agents agents published
      rw [some] at names
      simpa using names }

theorem starts (sound : s.Sound) {call : Nat} {ask : Ask} (fresh : s.fresh = [(call, ask)])
    {s' : CallSide} {es : List Effect}
    (started : Started { s with fresh := [] } call ask s' es) : s'.Sound := by
  have count (c : Nat) : s.unfinished.count c =
      ({ s with fresh := [] } : CallSide).unfinished.count c + [call].count c := by
    rw [count_unfinished, count_unfinished, unstarted, unstarted, fresh]
    simp only [List.map_cons, List.map_nil, List.nil_append, List.count_append]
    omega
  have waits := mem_unstarted_of_fresh fresh
  have kept : (call :: (([] : List (Nat × Ask)).map Prod.fst ++ s.waiting.map Prod.fst)).Perm
      s.unstarted := by
    rw [unstarted, fresh]
    rfl
  have forgotten : Sound { s with fresh := [] } :=
    sound.relist (fun c => by rw [count c]; exact Nat.le_add_right ..)
      (fun c member => List.mem_append_right _ member)
      (fun waiting => sound.turns (.inr waiting)) sound.watchers_uninitialized
  cases started with
  | watches uninitialized =>
    refine sound.relist (fun c => ?_) (fun c member => List.mem_append_right _ member)
      (fun waiting => sound.turns (.inr waiting)) (fun _ => uninitialized)
    rw [count c, count_unfinished, count_unfinished]
    simp only [unstarted, List.count_append]
    omega
  | watched | dropped | early | twice | unrouted => exact forgotten
  | broadcast initialized sent silent queues taken =>
    refine forgotten.restock sent.channels sent.names fun ref => ?_
    have total := sent.copies ref
    simpa using total
  | queued uninitialized handshake busy =>
    have occupied := (forgotten.turns busy).2
    refine sound.relist (fun c => ?_) (fun c member => ?_) (fun _ => ⟨uninitialized, occupied⟩)
      sound.watchers_uninitialized
    · rw [count c, count_unfinished, count_unfinished]
      simp only [unstarted, List.map_append, List.map_cons, List.map_nil, List.count_append]
      omega
    · simp only [List.map_append, List.map_cons, List.map_nil, List.nil_append, List.mem_append,
        List.mem_singleton] at member
      rcases member with member | rfl
      · exact List.mem_append_right _ member
      · exact waits
  | @opened method params uninitialized handshake free empty some =>
    have began := sound.opened uninitialized some params kept
    have same : ({ s with fresh := [] } : CallSide).opened call params =
        { s.opened call params with fresh := [], waiting := s.waiting } := by
      rw [opened_eq, opened_eq]
      rfl
    rw [same]
    exact began
  | alone uninitialized handshake free empty none unsent ended =>
    have fewer (c : Nat) : ({ s with
        fresh := [], phase := .initialized [], watchers := [] } : CallSide).unfinished.count c ≤
          s.unfinished.count c := by
      rw [count c, count_unfinished, count_unfinished]
      simp only [unstarted, List.count_nil]
      omega
    exact { forgotten with
      numbered := (sound.fewer fewer).1
      distinct := (sound.fewer fewer).2
      turns := fun line => line.elim (absurd free) (absurd empty)
      routed_initialized := fun _ => rfl
      watchers_uninitialized := fun some => absurd rfl some
      agents := fun agents initialized => by
        cases initialized
        rw [none, List.map_nil, List.map_nil] }
  | routed initialized other some => exact sound.route fresh initialized some _ _

end Sound

end CallSide

end Switchboard.Mux
