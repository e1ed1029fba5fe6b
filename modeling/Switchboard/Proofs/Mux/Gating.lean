import Mathlib.Data.List.Induction
import Switchboard.Proofs.Mux.Traffic

namespace Switchboard.Mux

namespace Session

variable (names : List String) (settings : Settings) (commands : List Command)

theorem reached_snoc (c : Command) : reached names settings (commands ++ [c]) =
    (((ofNames names settings).run commands).step c).1.calls := by
  rw [reached, run_append]
  rfl

theorem reached_isOpen_snoc (c : Command) (i : Nat) :
    (reached names settings (commands ++ [c])).isOpen i =
      (((ofNames names settings).run commands).act c).1.calls.isOpen i := by
  obtain ⟨sound, quiet⟩ := reached_sound names settings commands
  obtain ⟨recorded, -⟩ := reached_recorded names settings commands
  rw [reached_snoc]
  exact isOpen_step sound quiet recorded.accounts.asked c i

theorem accepted_snoc (index : Nat) (c : Command) :
    (ofNames names settings).accepted index (commands ++ [c]) =
      (ofNames names settings).accepted index commands ++
        ((ofNames names settings).run commands).enqueued index c := by
  rw [accepted_append, accepted, accepted, List.append_nil]

theorem issued_call (alive : ((ofNames names settings).run commands).isAlive = true) (ask : Ask) :
    ((reached names settings commands).nextCall, ask) ∈
      (record names settings (commands ++ [.calls (.call ask)])).issued := by
  rw [record_snoc, notedAtOnce, act_call alive]
  simp [Command.issues, reached]

/-- A channel has accepted nothing but handshake requests, one for each call at most. -/
structure Opening (index : Nat) (begun : List (Nat × Json)) : Prop where
  whole : (ofNames names settings).accepted index commands = begun.map handshakeRequest
  asked : ∀ w ∈ begun,
    (w.1, .request handshakeMethod w.2) ∈ (record names settings commands).issued
  once : (begun.map Prod.fst).Nodup
  started : ∀ w ∈ begun, w.1 ∉ (reached names settings commands).unstarted

variable {names settings commands}

theorem Opening.snoc {index : Nat} {begun : List (Nat × Json)}
    (opening : Opening names settings commands index begun)
    (uninitialized : (reached names settings commands).phase = .uninitialized) (c : Command) :
    ∃ more, Opening names settings (commands ++ [c]) index (begun ++ more) := by
  obtain ⟨sound, quiet⟩ := reached_sound names settings commands
  obtain ⟨recorded, -⟩ := reached_recorded names settings commands
  obtain ⟨begun', begins⟩ := step_begins sound quiet recorded.accounts.asked uninitialized c
  have moved := act_moved ((ofNames names settings).run commands) c
  have soundActed := sound.moved moved
  have issued := issued_snoc names settings commands c
  -- calls that started before do not start again
  have old {w : Nat × Json} (member : w ∈ begun) :
      w.1 ∉ (((ofNames names settings).run commands).act c).1.calls.unstarted := fun waits =>
    opening.started w member
      (moved.unstarted _ (recorded.issued_lt (opening.asked w member)) waits)
  have new {x : Nat} (member : x ∈ begun'.map Prod.fst) :
      x ∈ (((ofNames names settings).run commands).act c).1.calls.unstarted ∧
        x ∉ (((ofNames names settings).run commands).step c).1.calls.unstarted := by
    have total := begins.started x
    have bound := soundActed.count_unstarted_le_one x
    have here := List.count_pos_iff.mpr member
    exact ⟨List.count_pos_iff.mp (by omega), fun again => by
      have still := List.count_pos_iff.mpr again
      omega⟩
  have distinct : (begun'.map Prod.fst).Nodup := List.nodup_iff_count_le_one.mpr fun x => by
    have total := begins.started x
    have bound := soundActed.count_unstarted_le_one x
    omega
  obtain ⟨more, sub, queued⟩ : ∃ more : List (Nat × Json), more.Sublist begun' ∧
      ((ofNames names settings).run commands).enqueued index c = more.map handshakeRequest := by
    rw [enqueued_eq (begins.queues index)]
    split
    · exact ⟨begun', .refl _, rfl⟩
    · exact ⟨[], List.nil_sublist _, rfl⟩
  refine ⟨more, ?_, fun w member => ?_, ?_, fun w member => ?_⟩
  · rw [accepted_snoc, opening.whole, queued, List.map_append]
  · rw [issued]
    rcases List.mem_append.mp member with member | member
    · exact List.mem_append_left _ (opening.asked w member)
    · exact begins.asked w (sub.subset member)
  · rw [List.map_append, List.nodup_append]
    refine ⟨opening.once, distinct.sublist (sub.map _), fun x first y second same => ?_⟩
    obtain ⟨w, member, rfl⟩ := List.mem_map.mp first
    exact old member (same ▸ (new ((sub.map _).subset second)).1)
  · rw [reached_snoc]
    rcases List.mem_append.mp member with member | member
    · have keeps := reached_keeps names settings commands [c]
      rw [reached_snoc] at keeps
      exact fun waits => opening.started w member
        (keeps.unstarted _ (recorded.issued_lt (opening.asked w member)) waits)
    · exact (new (List.mem_map_of_mem (sub.subset member))).2

theorem opening (index : Nat)
    (uninitialized : (reached names settings commands).phase = .uninitialized) :
    ∃ begun, Opening names settings commands index begun := by
  induction commands using List.reverseRecOn with
  | nil => exact ⟨[], rfl, nofun, List.nodup_nil, nofun⟩
  | append_singleton before c ih =>
    have earlier := (reached_keeps names settings before [c]).uninitialized uninitialized
    obtain ⟨begun, opening⟩ := ih earlier
    obtain ⟨more, next⟩ := opening.snoc earlier c
    exact ⟨begun ++ more, next⟩

theorem publishing_step
    (initialized : (reached names settings commands).phase.isInitialized = true) :
    ∃ before c after, commands = before ++ [c] ++ after ∧
      (reached names settings before).phase = .uninitialized ∧
      (reached names settings (before ++ [c])).phase.isInitialized = true := by
  induction commands using List.reverseRecOn with
  | nil => cases initialized
  | append_singleton l last ih =>
    cases earlier : (reached names settings l).phase with
    | uninitialized => exact ⟨l, last, [], (List.append_nil _).symm, earlier, initialized⟩
    | initialized agents =>
      obtain ⟨before, c, after, rfl, here⟩ := ih (by rw [earlier]; rfl)
      exact ⟨before, c, after ++ [last], List.append_assoc .., here⟩

theorem accepted_of_taken :
    (∀ i, (reached names settings commands).queueAt i ⊆
      (ofNames names settings).accepted i commands) ∧
    ∀ ref method params, (ref, method, params) ∈ (record names settings commands).taken →
      .request ref.call method params ∈
        (ofNames names settings).accepted ref.backend commands := by
  induction commands using List.reverseRecOn with
  | nil =>
    refine ⟨fun i => ?_, nofun⟩
    have empty : (reached names settings []).queueAt i = [] := by
      simp only [reached, run_nil, ofNames, ofBackends, CallSide.queueAt, queueIn,
        List.getElem?_map]
      cases names[i]? <;> rfl
    rw [empty]
    exact List.nil_subset _
  | append_singleton before c ih =>
    obtain ⟨queued, taken⟩ := ih
    obtain ⟨sound, quiet⟩ := reached_sound names settings before
    obtain ⟨recorded, -⟩ := reached_recorded names settings before
    have moved := act_moved ((ofNames names settings).run before) c
    refine ⟨fun i => ?_, fun ref method params member => ?_⟩
    · rw [reached_snoc, accepted_snoc, queueAt_step sound quiet recorded.accounts.asked]
      exact List.append_subset.mpr ⟨List.subset_append_of_subset_left _
        (List.Subset.trans (moved.queueAt_subset sound.channels i) (queued i)),
        List.subset_append_right _ _⟩
    · rw [record_snoc, Ledger.taken_append, Ledger.taken_append, List.append_nil] at member
      rw [accepted_snoc]
      refine List.mem_append_left _ ?_
      rcases List.mem_append.mp member with member | member
      · exact taken ref method params member
      · exact queued _ (moved.queued_of_taken member)

/-- What a channel accepts in a run: handshake requests, and from the published handshake on what is
    relayed to it. -/
structure Traffic (names : List String) (settings : Settings) (commands : List Command)
    (index : Nat) (handshakes : List (Nat × Json)) (rest : List Outbound) : Prop where
  whole : (ofNames names settings).accepted index commands =
    handshakes.map handshakeRequest ++ rest
  asked : ∀ w ∈ handshakes,
    (w.1, .request handshakeMethod w.2) ∈ (record names settings commands).issued
  once : (handshakes.map Prod.fst).Nodup
  published : ∀ {call params v}, index < names.length →
    (call, .request handshakeMethod params) ∈ (record names settings commands).issued →
    (call, .ok v) ∈ (record names settings commands).ended → (call, params) ∈ handshakes
  gated : (reached names settings commands).phase = .uninitialized → rest = []
  relayed : (reached names settings commands).phase.isInitialized = true →
    ∃ before c after, commands = before ++ [c] ++ after ∧
      (reached names settings before).phase = .uninitialized ∧
      (reached names settings (before ++ [c])).phase.isInitialized = true ∧
      rest = ((ofNames names settings).run (before ++ [c])).relayed index after ∧
      rest.Sublist ((((ofNames names settings).run (before ++ [c])).ledger after).issued.filterMap
        fun x => x.2.message? x.1 index)
  unrequested : ∀ call params, .request call handshakeMethod params ∉ rest
  noticed : 0 < index → ∀ m ∈ rest, ∃ method params, m = .notification method params

theorem message?_cases {x : Nat × Ask} {index : Nat} {m : Outbound}
    (found : x.2.message? x.1 index = some m) :
    (∃ method params, x.2 = .notify method params ∧ m = .notification method params) ∨
    ∃ method params, x.2 = .request method params ∧ m = .request x.1 method params ∧ index = 0 ∧
      isHandshake method = false := by
  obtain ⟨call, ask⟩ := x
  cases ask with
  | notify method params =>
    cases found
    exact .inl ⟨method, params, rfl, rfl⟩
  | request method params =>
    simp only [Ask.message?] at found
    split at found
    · rename_i first
      cases found
      exact .inr ⟨method, params, rfl, rfl, first⟩
    · cases found
  | awaitHandshake => cases found

theorem mem_relayed {s : Session} {index : Nat} {m : Outbound}
    (member : m ∈ s.relayed index commands) :
    ∃ x ∈ (s.ledger commands).issued, x.2.message? x.1 index = some m :=
  List.mem_filterMap.mp ((relayed_sublist s index commands).subset member)

theorem relayed_ne_handshake {s : Session} {index call : Nat} {params : Json} :
    .request call handshakeMethod params ∉ s.relayed index commands := by
  intro member
  obtain ⟨x, -, found⟩ := mem_relayed member
  rcases message?_cases found with ⟨_, _, -, same⟩ | ⟨_, _, -, same, -, other⟩
  · cases same
  · cases same
    cases other

theorem relayed_notification {s : Session} {index : Nat} (later : 0 < index) :
    ∀ m ∈ s.relayed index commands, ∃ method params, m = .notification method params := by
  intro m member
  obtain ⟨x, -, found⟩ := mem_relayed member
  rcases message?_cases found with ⟨method, params, -, same⟩ | ⟨_, _, -, -, rfl, -⟩
  · exact ⟨method, params, same⟩
  · exact absurd later (Nat.lt_irrefl 0)

theorem accepted_of_success {index call : Nat} {params v : Json} (inRange : index < names.length)
    (issued : (call, .request handshakeMethod params) ∈ (record names settings commands).issued)
    (ended : (call, .ok v) ∈ (record names settings commands).ended) :
    .request call handshakeMethod params ∈ (ofNames names settings).accepted index commands := by
  obtain ⟨recorded, concluded⟩ := reached_recorded names settings commands
  cases phase : (reached names settings commands).phase with
  | uninitialized => exact absurd issued (concluded.uninitialized phase ended)
  | initialized agents =>
    obtain ⟨c, p, values, by'⟩ := concluded.published agents phase
    cases by'.sole ended issued
    have bound : index < values.length := by
      rw [by'.length]
      exact (reached_length names settings commands).symm ▸ inRange
    have answered := (by'.answered index values[index]).mp (List.getElem?_eq_getElem bound)
    obtain ⟨method, sent, taken⟩ := recorded.answers.taken answered
    have same := recorded.ask_unique issued (recorded.traced.taken taken)
    rw [Ask.request.injEq] at same
    rw [same.1, same.2]
    exact accepted_of_taken.2 _ _ _ taken

theorem traffic (names : List String) (settings : Settings) (commands : List Command)
    (index : Nat) : ∃ handshakes rest, Traffic names settings commands index handshakes rest := by
  have own {handshakes : List (Nat × Json)} {rest : List Outbound}
      (whole : (ofNames names settings).accepted index commands =
        handshakes.map handshakeRequest ++ rest)
      (unrequested : ∀ call params, .request call handshakeMethod params ∉ rest) {call : Nat}
      {params v : Json} (inRange : index < names.length)
      (issued : (call, .request handshakeMethod params) ∈ (record names settings commands).issued)
      (ended : (call, .ok v) ∈ (record names settings commands).ended) :
      (call, params) ∈ handshakes := by
    have accepted := accepted_of_success inRange issued ended
    rw [whole] at accepted
    rcases List.mem_append.mp accepted with first | later
    · obtain ⟨w, member, same⟩ := List.mem_map.mp first
      cases same
      exact member
    · exact absurd later (unrequested call params)
  cases phase : (reached names settings commands).phase with
  | uninitialized =>
    obtain ⟨begun, opening⟩ := opening index phase
    have whole := opening.whole.trans (List.append_nil _).symm
    exact ⟨begun, [], {
      whole, asked := opening.asked, once := opening.once
      published := own whole fun _ _ => List.not_mem_nil
      gated := fun _ => rfl
      relayed := fun initialized => by rw [phase] at initialized; cases initialized
      unrequested := fun _ _ => List.not_mem_nil
      noticed := nofun }⟩
  | initialized agents =>
    have now : (reached names settings commands).phase.isInitialized = true := by rw [phase]; rfl
    -- the run is cut at the command that publishes the handshake
    obtain ⟨before, c, after, split, uninitialized, initialized⟩ := publishing_step now
    obtain ⟨first, opening⟩ := opening index uninitialized
    obtain ⟨more, opening⟩ := opening.snoc uninitialized c
    obtain ⟨sound, quiet⟩ := reached_sound names settings (before ++ [c])
    have whole : (ofNames names settings).accepted index commands =
        (first ++ more).map handshakeRequest ++
          ((ofNames names settings).run (before ++ [c])).relayed index after := by
      rw [split, accepted_append, opening.whole,
        accepted_of_initialized sound quiet initialized]
    exact ⟨first ++ more, _, {
      whole, once := opening.once
      asked := fun w member => by
        rw [split, record, ledger_append, Ledger.issued_append]
        exact List.mem_append_left _ (opening.asked w member)
      published := own whole fun _ _ => relayed_ne_handshake
      gated := fun contrary => by rw [phase] at contrary; cases contrary
      relayed := fun _ =>
        ⟨before, c, after, split, uninitialized, initialized, rfl, relayed_sublist ..⟩
      unrequested := fun _ _ => relayed_ne_handshake
      noticed := relayed_notification }⟩

theorem Settled.step_refused {s : Session} (settled : s.Settled) (sound : s.calls.Sound)
    (alive : s.isAlive = true) {ask : Ask} {es : List Effect}
    (refused : ∀ calls es', CallSide.Started
      { s.calls with nextCall := s.calls.nextCall + 1 } s.calls.nextCall ask calls es' →
        calls = { s.calls with nextCall := s.calls.nextCall + 1 } ∧ es' = es) :
    s.step (.calls (.call ask)) =
      ({ s with calls := { s.calls with nextCall := s.calls.nextCall + 1 } },
        .call s.calls.nextCall, es) := by
  obtain ⟨calls, es', started, settles⟩ := settled.step_call sound alive ask
  obtain ⟨rfl, rfl⟩ := refused calls es' started
  obtain ⟨⟨fresh, attempt, waiting, routed⟩, -, -⟩ := settled
  exact settles ⟨fresh, attempt, waiting, routed⟩

section

variable {s : Session}

theorem step_dropped (settled : s.Settled) (sound : s.calls.Sound) (alive : s.isAlive = true)
    (uninitialized : s.calls.phase = .uninitialized) (method : String) (params : Json) :
    s.step (.calls (.call (.notify method params))) =
      ({ s with calls := { s.calls with nextCall := s.calls.nextCall + 1 } },
        .call s.calls.nextCall,
        [.logged (.notificationDropped method), .ended s.calls.nextCall (.ok .null)]) := by
  refine settled.step_refused sound alive fun calls es started => ?_
  cases started with
  | dropped => exact ⟨rfl, rfl⟩
  | broadcast initialized => exact Phase.clash uninitialized initialized

theorem step_early (settled : s.Settled) (sound : s.calls.Sound) (alive : s.isAlive = true)
    (uninitialized : s.calls.phase = .uninitialized) {method : String}
    (other : isHandshake method = false) (params : Json) :
    s.step (.calls (.call (.request method params))) =
      ({ s with calls := { s.calls with nextCall := s.calls.nextCall + 1 } },
        .call s.calls.nextCall,
        [.ended s.calls.nextCall (.error (.notInitialized "server not initialized"))]) := by
  refine settled.step_refused sound alive fun calls es started => ?_
  have same {P : Prop} (handshake : isHandshake method = true) : P := by
    rw [other] at handshake
    cases handshake
  cases started with
  | early => exact ⟨rfl, rfl⟩
  | queued _ handshake => exact same handshake
  | opened _ handshake => exact same handshake
  | alone _ handshake => exact same handshake
  | twice initialized => exact Phase.clash uninitialized initialized
  | unrouted initialized => exact Phase.clash uninitialized initialized
  | routed initialized => exact Phase.clash uninitialized initialized

theorem step_unrouted (settled : s.Settled) (sound : s.calls.Sound) (alive : s.isAlive = true)
    (initialized : s.calls.phase.isInitialized = true) (none : s.calls.backends = [])
    {method : String} (other : isHandshake method = false) (params : Json) :
    s.step (.calls (.call (.request method params))) =
      ({ s with calls := { s.calls with nextCall := s.calls.nextCall + 1 } },
        .call s.calls.nextCall,
        [.ended s.calls.nextCall
          (.error (.internalError "no backends to route requests to"))]) := by
  refine settled.step_refused sound alive fun calls es started => ?_
  obtain ⟨-, same, effects⟩ | ⟨_, _, some, -⟩ := started.route initialized other
  · exact ⟨same, effects⟩
  · rw [show s.calls.backends = _ from some] at none
    cases none

end

theorem nextCall_le_of_later (before after : List Command) :
    ∀ x ∈ (((ofNames names settings).run before).ledger after).issued,
      (reached names settings before).nextCall ≤ x.1 := by
  intro x member
  by_contra earlier
  obtain ⟨first, -⟩ := reached_recorded names settings before
  obtain ⟨whole, -⟩ := reached_recorded names settings (before ++ after)
  have old : x.1 ∈ (record names settings before).issued.map Prod.fst := by
    rw [first.accounts.issued]
    exact List.mem_range.mpr (Nat.lt_of_not_le earlier)
  have distinct : ((record names settings (before ++ after)).issued.map Prod.fst).Nodup :=
    whole.accounts.issued ▸ List.nodup_range
  rw [record, ledger_append, Ledger.issued_append, List.map_append] at distinct
  exact List.disjoint_of_nodup_append distinct old (List.mem_map_of_mem member)

theorem Traffic.issued_later {c : Command} {later : List Command} {index : Nat}
    {handshakes : List (Nat × Json)} {rest : List Outbound}
    (traffic : Traffic names settings (commands ++ [c] ++ later) index handshakes rest)
    (uninitialized : (reached names settings (commands ++ [c])).phase = .uninitialized) :
    rest.Sublist (((record names settings (commands ++ [c] ++ later)).issued.filter fun x =>
      (reached names settings (commands ++ [c])).nextCall ≤ x.1).filterMap
        fun x => x.2.message? x.1 index) := by
  cases phase : (reached names settings (commands ++ [c] ++ later)).phase with
  | uninitialized =>
    rw [traffic.gated phase]
    exact List.nil_sublist _
  | initialized agents =>
    obtain ⟨before, c', after, split, -, initialized, -, relayed⟩ :=
      traffic.relayed (by rw [phase]; rfl)
    have bound : (reached names settings (commands ++ [c])).nextCall ≤
        (reached names settings (before ++ [c'])).nextCall := by
      rcases List.append_eq_append_iff.mp split with ⟨more, same, -⟩ | ⟨more, same, -⟩
      · rw [same]
        exact (reached_keeps names settings _ more).nextCall
      · have kept := reached_keeps names settings (before ++ [c']) more
        rw [← same] at kept
        rw [kept.uninitialized uninitialized] at initialized
        cases initialized
    rw [split, record, ledger_append, Ledger.issued_append, List.filter_append,
      List.filterMap_append]
    refine relayed.trans (List.sublist_append_of_sublist_right ?_)
    rw [List.filter_eq_self.mpr fun x member =>
      decide_eq_true (Nat.le_trans bound (nextCall_le_of_later (before ++ [c']) after x member))]

/-- No channel is ever sent a request for the call with this number, nor is anything relayed that is
    not of a call with a later one. -/
def Unseen (names : List String) (settings : Settings) (commands : List Command) (call : Nat) :
    Prop :=
  ∀ index handshakes rest, Traffic names settings commands index handshakes rest →
    (∀ method params,
      .request call method params ∉ (ofNames names settings).accepted index commands) ∧
    rest.Sublist (((record names settings commands).issued.filter (call < ·.1)).filterMap
      fun x => x.2.message? x.1 index)

theorem unseen_of_refused {ask : Ask} {es : List Effect}
    (alive : ((ofNames names settings).run commands).isAlive = true)
    (uninitialized : (reached names settings commands).phase = .uninitialized)
    (other : ask.isHandshake = false)
    (step : ((ofNames names settings).run commands).step (.calls (.call ask)) =
      ({ (ofNames names settings).run commands with
          calls := { reached names settings commands with
            nextCall := (reached names settings commands).nextCall + 1 } },
        .call (reached names settings commands).nextCall, es)) (later : List Command) :
    Unseen names settings (commands ++ [.calls (.call ask)] ++ later)
      (reached names settings commands).nextCall := by
  intro index handshakes rest traffic
  have next : reached names settings (commands ++ [.calls (.call ask)]) =
      { reached names settings commands with
        nextCall := (reached names settings commands).nextCall + 1 } := by
    rw [reached_snoc, step]
  have relayed := traffic.issued_later (by rw [next]; exact uninitialized)
  rw [next] at relayed
  refine ⟨fun method params accepted => ?_, relayed⟩
  have issued : ((reached names settings commands).nextCall, ask) ∈
      (record names settings (commands ++ [.calls (.call ask)] ++ later)).issued := by
    rw [record, ledger_append, Ledger.issued_append]
    exact List.mem_append_left _ (issued_call names settings commands alive ask)
  rw [traffic.whole] at accepted
  rcases List.mem_append.mp accepted with first | relays
  · obtain ⟨w, member, same⟩ := List.mem_map.mp first
    obtain ⟨recorded, -⟩ :=
      reached_recorded names settings (commands ++ [.calls (.call ask)] ++ later)
    have asked := traffic.asked w member
    rw [(Outbound.request.inj same).1] at asked
    cases recorded.ask_unique issued asked
    cases other
  · obtain ⟨x, member, found⟩ := List.mem_filterMap.mp (relayed.subset relays)
    have later := of_decide_eq_true (List.mem_filter.mp member).2
    rcases message?_cases found with ⟨_, _, -, same⟩ | ⟨_, _, -, same, -⟩
    · cases same
    · rw [(Outbound.request.inj same).1] at later
      exact absurd later (Nat.lt_irrefl _)

/-- A backend sees the handshake requests of attempts, then what is relayed to it once the handshake
    is published. Before that nothing else is sent, and what is called then is not sent later. -/
theorem gated_traffic (names : List String) (settings : Settings) (commands : List Command) :
    let now := (ofNames names settings).run commands
    (∀ index, ∃ handshakes rest, Traffic names settings commands index handshakes rest) ∧
    (now.isAlive = true → now.calls.phase = .uninitialized →
      (∀ method params later,
        let c := .calls (.call (.notify method params))
        endings (now.step c).2.2 = [(now.calls.nextCall, .ok .null)] ∧
          Unseen names settings (commands ++ [c] ++ later) now.calls.nextCall) ∧
      ∀ method params later, isHandshake method = false →
        let c := .calls (.call (.request method params))
        endings (now.step c).2.2 =
            [(now.calls.nextCall, .error ⟨-32002, "server not initialized", none⟩)] ∧
          Unseen names settings (commands ++ [c] ++ later) now.calls.nextCall) ∧
    (now.isAlive = true → names = [] → now.calls.phase.isInitialized = true →
      ∀ method params, isHandshake method = false →
        endings (now.step (.calls (.call (.request method params)))).2.2 =
          [(now.calls.nextCall,
            .error ⟨-32603, "no backends to route requests to", none⟩)]) := by
  intro now
  have settled : now.Settled := reached_settled names settings commands
  obtain ⟨sound, -⟩ := reached_sound names settings commands
  refine ⟨traffic names settings commands, fun alive uninitialized => ⟨?_, ?_⟩, ?_⟩
  · intro method params later c
    have step := step_dropped settled sound alive uninitialized method params
    exact ⟨by rw [step]; rfl, unseen_of_refused alive uninitialized rfl step later⟩
  · intro method params later other c
    have step := step_early settled sound alive uninitialized other params
    have plain : (Ask.request method params).isHandshake = false := other
    exact ⟨by rw [step]; rfl, unseen_of_refused alive uninitialized plain step later⟩
  · intro alive none initialized method params other
    have bare : now.calls.backends = [] := List.length_eq_zero_iff.mp
      ((reached_length names settings commands).trans (congrArg List.length none))
    rw [step_unrouted settled sound alive initialized bare other]
    rfl

theorem gated_traffic_of_early_calls :
    let now := (ofNames ["a"] {}).run [.calls (.call (.request handshakeMethod .null))]
    let bare := (ofNames [] {}).run [.calls (.call (.request handshakeMethod .null))]
    endings (now.step (.calls (.call (.notify "m" .null)))).2.2 = [(1, .ok .null)] ∧
    Unseen ["a"] {} [.calls (.call (.request handshakeMethod .null)),
      .calls (.call (.notify "m" .null)), .calls (.receive 0), .calls (.respond 0 .null)] 1 ∧
    endings (now.step (.calls (.call (.request "m" .null)))).2.2 =
      [(1, .error ⟨-32002, "server not initialized", none⟩)] ∧
    endings (bare.step (.calls (.call (.request "m" .null)))).2.2 =
      [(1, .error ⟨-32603, "no backends to route requests to", none⟩)] := by
  intro now bare
  obtain ⟨-, early, -⟩ :=
    gated_traffic ["a"] {} [.calls (.call (.request handshakeMethod .null))]
  obtain ⟨-, -, unrouted⟩ := gated_traffic [] {} [.calls (.call (.request handshakeMethod .null))]
  obtain ⟨notified, requested⟩ := early rfl rfl
  obtain ⟨ended, unseen⟩ := notified "m" .null [.calls (.receive 0), .calls (.respond 0 .null)]
  exact ⟨ended, unseen, (requested "m" .null [] (by decide)).1,
    unrouted rfl rfl rfl "m" .null (by decide)⟩

end Session

end Switchboard.Mux
