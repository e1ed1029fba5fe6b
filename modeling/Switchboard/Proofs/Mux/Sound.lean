import Switchboard.Proofs.Mux.Turns

namespace Switchboard.Mux

namespace CallSide

/-- The calls that have not sent anything. -/
def unstarted (s : CallSide) : List Nat := s.fresh.map Prod.fst ++ s.waiting.map Prod.fst

/-- Every call that has not ended is in one place, and a request is awaited just when it can still
    be answered. -/
structure Sound (s : CallSide) : Prop where
  channels : ∀ b ∈ s.backends, b.IsChannel
  numbered : ∀ call ∈ s.unfinished, call < s.nextCall
  distinct : s.unfinished.Nodup
  requested : ∀ ref, 0 < s.copies ref →
    ref.call < s.nextCall ∧ ref.call ∉ s.unstarted ∧ ref.backend < s.backends.length
  single : ∀ ref, s.copies ref ≤ 1
  turns : s.attempt ≠ none ∨ s.waiting ≠ [] → s.phase = .uninitialized ∧ s.backends ≠ []
  attempt_wellFormed : ∀ a, s.attempt = some a → a.WellFormed s.backends.length
  attempt_running : ∀ a, s.attempt = some a → ∀ i, i ∈ a.running ↔ 0 < s.copies ⟨a.call, i⟩
  routed_initialized : s.routed ≠ [] → s.phase.isInitialized = true
  routed_waits : ∀ r ∈ s.routed, (r.reply = none ↔ 0 < s.copies ⟨r.call, 0⟩)
  watchers_uninitialized : s.watchers ≠ [] → s.phase = .uninitialized
  stalled : s.stalled = []
  agents : ∀ agents, s.phase = .initialized agents →
    agents.map Agent.name = s.backends.map Backend.name

variable {s : CallSide}

theorem count_unfinished (s : CallSide) (call : Nat) :
    s.unfinished.count call = s.unstarted.count call +
      (s.attempt.map Attempt.call).toList.count call + (s.routed.map Routed.call).count call +
      s.watchers.count call + s.stalled.count call := by
  simp only [unfinished, unstarted, List.count_append]
  omega

theorem count_unstarted_le (s : CallSide) (call : Nat) :
    s.unstarted.count call ≤ s.unfinished.count call := by
  rw [count_unfinished]
  omega

theorem mem_unfinished_of_unstarted {call : Nat} (waits : call ∈ s.unstarted) :
    call ∈ s.unfinished := by
  have count := count_unstarted_le s call
  have some := List.count_pos_iff.mpr waits
  exact List.count_pos_iff.mp (by omega)

theorem mem_unstarted_of_fresh {call : Nat} {ask : Ask} {rest : List (Nat × Ask)}
    (fresh : s.fresh = (call, ask) :: rest) : call ∈ s.unstarted := by
  rw [unstarted, fresh]
  exact List.mem_cons_self

theorem mem_unstarted_of_waiting {w : Nat × Json} (member : w ∈ s.waiting) :
    w.1 ∈ s.unstarted := List.mem_append_right _ (List.mem_map_of_mem member)

namespace Sound

theorem no_copies_of_unstarted (sound : s.Sound) {call : Nat} (waits : call ∈ s.unstarted)
    (i : Nat) : s.copies ⟨call, i⟩ = 0 :=
  Nat.eq_zero_of_not_pos fun positive => (sound.requested _ positive).2.1 waits

theorem count_le_one (sound : s.Sound) (call : Nat) : s.unfinished.count call ≤ 1 :=
  List.nodup_iff_count_le_one.mp sound.distinct call

theorem count_unstarted_le_one (sound : s.Sound) (call : Nat) : s.unstarted.count call ≤ 1 :=
  Nat.le_trans (count_unstarted_le s call) (sound.count_le_one call)

theorem fewer (sound : s.Sound) {calls : List Nat}
    (count : ∀ c, calls.count c ≤ s.unfinished.count c) :
    (∀ c ∈ calls, c < s.nextCall) ∧ calls.Nodup := by
  refine ⟨fun c member => sound.numbered c ?_, List.nodup_iff_count_le_one.mpr fun c => ?_⟩
  · have here := List.count_pos_iff.mpr member
    have less := count c
    exact List.count_pos_iff.mp (by omega)
  · exact Nat.le_trans (count c) (sound.count_le_one c)

theorem unrouted (sound : s.Sound) (uninitialized : s.phase = .uninitialized) :
    s.routed = [] := by
  by_contra some
  have phase := sound.routed_initialized some
  rw [uninitialized] at phase
  cases phase

theorem started (sound : s.Sound) {a : Attempt} (held : s.attempt = some a) :
    a.call ∉ s.unstarted := by
  intro waits
  have total := sound.count_le_one a.call
  have here := List.count_pos_iff.mpr waits
  rw [count_unfinished, held] at total
  simp only [Option.map_some, Option.toList_some, List.count_singleton_self] at total
  omega

theorem isOpen_lt {i : Nat} (isOpen : s.isOpen i = true) : i < s.backends.length := by
  by_contra beyond
  have none : s.backends[i]? = none := List.getElem?_eq_none_iff.mpr (by omega)
  simp [CallSide.isOpen, none] at isOpen

theorem send (sound : s.Sound) (free : s.attempt = none)
    (uninitialized : s.phase = .uninitialized) {calls : List Nat} {bs : List Backend}
    {fresh : List (Nat × Ask)} {waiting : List (Nat × Json)} (sent : SentTo calls s.backends bs)
    (occupied : waiting ≠ [] → s.backends ≠ [])
    (kept : (calls ++ (fresh.map Prod.fst ++ waiting.map Prod.fst)).Perm s.unstarted) :
    Sound { s with backends := bs, fresh, waiting } := by
  have copies (ref : RequestRef) :
      ({ s with backends := bs, fresh, waiting } : CallSide).copies ref =
        s.copies ref + if s.isOpen ref.backend = true then calls.count ref.call else 0 :=
    sent.copies ref
  have waits {c : Nat} (member : c ∈ calls) : c ∈ s.unstarted :=
    kept.subset (List.mem_append_left _ member)
  have once (c : Nat) : calls.count c + (fresh.map Prod.fst ++ waiting.map Prod.fst).count c =
      s.unstarted.count c := by
    rw [← List.count_append]
    exact kept.count_eq c
  -- a call that sends may go on waiting in another list, but no call is in more lists than before
  have count (c : Nat) :
      ({ s with backends := bs, fresh, waiting } : CallSide).unfinished.count c ≤
        s.unfinished.count c := by
    rw [count_unfinished, count_unfinished]
    have total := once c
    simp only [unstarted] at total ⊢
    omega
  have length : bs.length = s.backends.length := by simpa using congrArg List.length sent.names
  have later {c : Nat} (member : c ∈ fresh.map Prod.fst ++ waiting.map Prod.fst) :
      c ∈ s.unstarted ∧ c ∉ calls := by
    have total := once c
    have bound := sound.count_unstarted_le_one c
    have here := List.count_pos_iff.mpr member
    exact ⟨List.count_pos_iff.mp (by omega), fun twice => by
      have other := List.count_pos_iff.mpr twice
      omega⟩
  exact {
    channels := sent.channels
    numbered := (sound.fewer count).1
    distinct := (sound.fewer count).2
    requested := by
      intro ref positive
      dsimp only
      rw [length]
      by_cases before : 0 < s.copies ref
      · obtain ⟨bound, started, inRange⟩ := sound.requested ref before
        exact ⟨bound, fun member => started (later member).1, inRange⟩
      · rw [copies] at positive
        have isOpen : s.isOpen ref.backend = true := by
          by_contra shut
          simp [shut, before] at positive
        have member : ref.call ∈ calls := by
          rw [if_pos isOpen] at positive
          exact List.count_pos_iff.mp (by omega)
        exact ⟨sound.numbered _ (mem_unfinished_of_unstarted (waits member)),
          fun again => (later again).2 member, isOpen_lt isOpen⟩
    single := by
      intro ref
      rw [copies]
      by_cases member : ref.call ∈ calls
      · have none : s.copies ref = 0 := sound.no_copies_of_unstarted (waits member) ref.backend
        have total := once ref.call
        have bound := sound.count_unstarted_le_one ref.call
        split <;> omega
      · rw [List.count_eq_zero_of_not_mem member]
        simpa using sound.single ref
    turns := fun line => ⟨uninitialized, by
      rcases line with held | waits
      · exact absurd free held
      · rw [← List.length_pos_iff, length]
        exact List.length_pos_iff.mpr (occupied waits)⟩
    attempt_wellFormed := fun a held => by
      rw [show s.attempt = _ from held] at free
      cases free
    attempt_running := fun a held => by
      rw [show s.attempt = _ from held] at free
      cases free
    routed_initialized := sound.routed_initialized
    routed_waits := fun r member => by
      change r ∈ s.routed at member
      rw [sound.unrouted uninitialized] at member
      cases member
    watchers_uninitialized := sound.watchers_uninitialized
    stalled := sound.stalled
    agents := fun agents initialized => by
      rw [show s.phase = _ from initialized] at uninitialized
      cases uninitialized }

theorem shrink (sound : s.Sound) {fresh : List (Nat × Ask)} {attempt : Option Attempt}
    {waiting : List (Nat × Json)} {routed : List Routed} {watchers stalled : List Nat}
    (fewerFresh : fresh.Sublist s.fresh) (held : ∀ a, attempt = some a → s.attempt = some a)
    (fewerWaiting : waiting.Sublist s.waiting) (fewerRouted : routed.Sublist s.routed)
    (fewerWatchers : watchers.Sublist s.watchers) (fewerStalled : stalled.Sublist s.stalled) :
    Sound { s with fresh, attempt, waiting, routed, watchers, stalled } := by
  have fewerUnstarted : (fresh.map Prod.fst ++ waiting.map Prod.fst).Sublist s.unstarted :=
    (fewerFresh.map Prod.fst).append (fewerWaiting.map Prod.fst)
  have fewerHeld : (attempt.map Attempt.call).toList.Sublist
      (s.attempt.map Attempt.call).toList := by
    cases here : attempt with
    | none => exact List.nil_sublist _
    | some a =>
      rw [held a here]
  have fewer : ({ s with fresh, attempt, waiting, routed, watchers, stalled } :
      CallSide).unfinished.Sublist s.unfinished :=
    (((((fewerFresh.map Prod.fst).append fewerHeld).append (fewerWaiting.map Prod.fst)).append
      (fewerRouted.map Routed.call)).append fewerWatchers).append fewerStalled
  exact { sound with
    numbered := fun c member => sound.numbered c (fewer.subset member)
    distinct := sound.distinct.sublist fewer
    requested := fun ref positive => by
      obtain ⟨bound, started, inRange⟩ := sound.requested ref positive
      exact ⟨bound, fun member => started (fewerUnstarted.subset member), inRange⟩
    turns := fun line => sound.turns (line.imp
      (fun inTurn => by
        obtain ⟨a, here⟩ := Option.ne_none_iff_exists'.mp inTurn
        rw [held a here]
        exact nofun)
      (fun waits empty => waits (List.eq_nil_of_sublist_nil (empty ▸ fewerWaiting))))
    attempt_wellFormed := fun a here => sound.attempt_wellFormed a (held a here)
    attempt_running := fun a here => sound.attempt_running a (held a here)
    routed_initialized := fun some => sound.routed_initialized fun none =>
      some (List.eq_nil_of_sublist_nil (none ▸ fewerRouted))
    routed_waits := fun r member => sound.routed_waits r (fewerRouted.subset member)
    watchers_uninitialized := fun some => sound.watchers_uninitialized fun none =>
      some (List.eq_nil_of_sublist_nil (none ▸ fewerWatchers))
    stalled := List.eq_nil_of_sublist_nil (sound.stalled ▸ fewerStalled) }

theorem release (sound : s.Sound) : Sound { s with attempt := none } :=
  sound.shrink (.refl _) nofun (.refl _) (.refl _) (.refl _) (.refl _)

theorem opened (sound : s.Sound) (uninitialized : s.phase = .uninitialized)
    (occupied : s.backends ≠ []) {call : Nat} {fresh : List (Nat × Ask)}
    {waiting : List (Nat × Json)} (params : Json)
    (kept : (call :: (fresh.map Prod.fst ++ waiting.map Prod.fst)).Perm s.unstarted) :
    Sound { s.opened call params with fresh, waiting } := by
  have sent := SentTo.request sound.channels call handshakeMethod params
  have base := sound.release.send rfl uninitialized sent (fun _ => occupied) kept
  have waits : call ∈ s.unstarted := kept.subset List.mem_cons_self
  have unrequested := sound.no_copies_of_unstarted waits
  have member (i : Nat) : i ∈ (s.begun call params).running ↔ s.isOpen i = true := by
    rw [mem_begun_running_of_channels sound.channels, CallSide.isOpen]
    cases s.backends[i]? <;> simp
  have count (c : Nat) :
      ({ s.opened call params with fresh, waiting } : CallSide).unfinished.count c ≤
        s.unfinished.count c := by
    have total := kept.count_eq c
    rw [List.count_cons] at total
    rw [count_unfinished, count_unfinished]
    simp only [opened_eq, unstarted, Option.map_some, Option.toList_some, begun_call,
      List.count_singleton] at total ⊢
    omega
  rw [opened_eq] at count ⊢
  exact { base with
    numbered := (sound.fewer count).1
    distinct := (sound.fewer count).2
    turns := fun _ => ⟨uninitialized, by simpa using occupied⟩
    attempt_wellFormed := by
      intro a held
      cases held
      simpa using begun_wellFormed s call params
    attempt_running := by
      intro a held i
      cases held
      have copies := sent.copies (s := s) ⟨call, i⟩
      rw [unrequested i] at copies
      rw [member]
      change _ ↔ 0 < ({ s with backends := _ } : CallSide).copies ⟨call, i⟩
      rw [copies]
      by_cases accepting : s.isOpen i = true <;> simp [accepting] }

theorem joined (sound : s.Sound) {a : Attempt} (held : s.attempt = some a)
    {results : List (Option Json)} (stage : a.stage = .pending results) :
    Sound { s with attempt := some { a with finished := [], results } } := by
  obtain ⟨-, wellFormed, -⟩ := (sound.attempt_wellFormed a held).of_stage_pending stage
  have same : ({ s with attempt := some { a with finished := [], results } } : CallSide).unfinished
      = s.unfinished := by
    simp only [unfinished, held, Option.map_some]
  exact { sound with
    numbered := same ▸ sound.numbered
    distinct := same ▸ sound.distinct
    turns := fun _ => sound.turns (.inl (by simp [held]))
    attempt_wellFormed := fun a' held' => by
      cases held'
      exact wellFormed
    attempt_running := fun a' held' => by
      cases held'
      exact sound.attempt_running a held }

theorem agentsOf_values (bs : List Backend) (values : List Json) :
    agentsOf bs (values.map some) = bs.zipWith (fun b v => ⟨b.name, v⟩) values := by
  induction bs generalizing values with
  | nil => simp [agentsOf]
  | cons b rest ih =>
    cases values with
    | nil => simp [agentsOf]
    | cons v values =>
      have tail := ih values
      rw [agentsOf] at tail
      simp [agentsOf, tail]

theorem published (sound : s.Sound) {a : Attempt} (held : s.attempt = some a)
    {results : List (Option Json)} (stage : a.stage = .complete results) :
    Sound { s with
      phase := .initialized (agentsOf s.backends results)
      attempt := none
      waiting := []
      watchers := [] } := by
  have count (c : Nat) : ({ s with
      phase := .initialized (agentsOf s.backends results)
      attempt := none
      waiting := []
      watchers := [] } : CallSide).unfinished.count c ≤ s.unfinished.count c := by
    rw [count_unfinished, count_unfinished]
    simp only [unstarted, Option.map_none, Option.toList_none, List.count_nil, List.map_nil,
      List.append_nil, List.count_append]
    omega
  have unrouted := sound.unrouted (sound.turns (.inl (by simp [held]))).1
  obtain ⟨values, length, rfl, -⟩ := (sound.attempt_wellFormed a held).of_stage_complete stage
  exact { sound with
    numbered := (sound.fewer count).1
    distinct := (sound.fewer count).2
    requested := fun ref positive => by
      obtain ⟨bound, started, inRange⟩ := sound.requested ref positive
      refine ⟨bound, fun member => started ?_, inRange⟩
      simp only [unstarted, List.map_nil, List.append_nil, List.mem_append] at member ⊢
      exact .inl member
    turns := fun line => absurd rfl (line.elim (fun held => absurd rfl held) id)
    attempt_wellFormed := nofun
    attempt_running := nofun
    routed_initialized := fun some => absurd unrouted some
    watchers_uninitialized := fun some => absurd rfl some
    agents := fun agents initialized => by
      cases initialized
      rw [agentsOf_values, List.map_zipWith]
      refine List.ext_getElem (by simp [length]) fun i bound bound' => ?_
      simp }

theorem handshakes (sound : s.Sound) {s' : CallSide} {es : List Effect}
    (run : s.HandshakesRun s' es) : s'.Sound := by
  cases run with
  | idle => exact sound
  | pending held stage => exact sound.joined held stage
  | published held stage => exact sound.published held stage
  | @passed freed call params rest _ free next allOpen starts ended =>
    obtain ⟨uninitialized, occupied⟩ := sound.turns (.inr (by simp [next]))
    refine sound.opened uninitialized occupied params ?_
    rw [unstarted, next]
    exact List.perm_middle.symm
  | @drained freed failed bs _ free busy kept sent queues starts ended calls errors =>
    by_cases empty : s.waiting = []
    · have released := sound.release
      rw [kept empty]
      rwa [← empty]
    · refine sound.release.send rfl (sound.turns (.inr empty)).1 sent nofun ?_
      rw [List.map_nil, List.append_nil]
      exact List.perm_append_comm

end Sound

end CallSide

end Switchboard.Mux
