import Switchboard.Proofs.Mux.Answers

namespace Switchboard.Mux

/-- What the record of a run tells of its state. -/
structure Recorded (l : Ledger) (s : CallSide) : Prop where
  accounts : Accounts l s
  traced : Traced l.issued l.taken s
  answers : Answers l.taken l.answers s

namespace Recorded

variable {l : Ledger} {s : CallSide}

theorem moved (recorded : Recorded l s) (sound : s.Sound) {s' : CallSide} {d : Ledger}
    (moved : s.Moved s' d) : Recorded (l ++ d) s' where
  accounts := recorded.accounts.moved sound moved
  traced := recorded.traced.moved sound moved
  answers := recorded.answers.moved recorded.traced sound moved

theorem proceeds (recorded : Recorded l s) (sound : s.Sound) {s' : CallSide} {es : List Effect}
    (proceeds : s.Proceeds s' es) : Recorded (l ++ { ended := endings es }) s' where
  accounts := recorded.accounts.proceeds proceeds
  traced := by
    simpa using recorded.traced.proceeds recorded.accounts.asked sound proceeds
  answers := by simpa using recorded.answers.proceeds sound proceeds

theorem ask_unique (recorded : Recorded l s) {call : Nat} {ask ask' : Ask}
    (first : (call, ask) ∈ l.issued) (second : (call, ask') ∈ l.issued) : ask = ask' :=
  Numbered.unique recorded.accounts.issued first second

theorem issued_lt (recorded : Recorded l s) {call : Nat} {ask : Ask}
    (issued : (call, ask) ∈ l.issued) : call < s.nextCall :=
  Numbered.lt recorded.accounts.issued issued

theorem ended_lt (recorded : Recorded l s) {call : Nat} {outcome : Outcome}
    (ended : (call, outcome) ∈ l.ended) : call < s.nextCall := by
  have total := recorded.accounts.balanced call
  have member : call ∈ l.ended.map Prod.fst := List.mem_map_of_mem ended
  have positive := List.count_pos_iff.mpr member
  have issued : 0 < (l.issued.map Prod.fst).count call := by omega
  rw [List.count_pos_iff, recorded.accounts.issued, List.mem_range] at issued
  exact issued

theorem not_handshake_of_routed (recorded : Recorded l s) {r : Routed} (member : r ∈ s.routed)
    {params : Json} : (r.call, .request handshakeMethod params) ∉ l.issued := by
  intro issued
  obtain ⟨other, p, routed⟩ := recorded.accounts.asked.routed r member
  have same := recorded.ask_unique issued routed
  rw [Ask.request.injEq] at same
  rw [← same.1] at other
  cases other

theorem not_handshake_of_watcher (recorded : Recorded l s) {call : Nat}
    (member : call ∈ s.watchers) {params : Json} :
    (call, .request handshakeMethod params) ∉ l.issued := fun issued => by
  cases recorded.ask_unique issued (recorded.accounts.asked.watchers call member)

theorem not_handshake_of_endRouted (recorded : Recorded l s) {call : Nat} {outcome : Outcome}
    (ended : (call, outcome) ∈ endings s.endRouted.2) {params : Json} :
    (call, .request handshakeMethod params) ∉ l.issued := by
  rw [CallSide.endings_endRouted, List.mem_filterMap] at ended
  obtain ⟨r, member, replied⟩ := ended
  obtain ⟨reply, -, same⟩ := Option.map_eq_some_iff.mp replied
  obtain ⟨rfl, -⟩ := Prod.mk.inj same
  exact recorded.not_handshake_of_routed member

theorem not_mem_of_ended (recorded : Recorded l s) {call : Nat} {outcome : Outcome}
    (ended : (call, outcome) ∈ l.ended) : call ∉ s.unfinished := by
  intro waits
  have total := recorded.accounts.balanced call
  have member : call ∈ l.ended.map Prod.fst := List.mem_map_of_mem ended
  have positive := List.count_pos_iff.mpr member
  have here := List.count_pos_iff.mpr waits
  have once : (l.issued.map Prod.fst).count call ≤ 1 :=
    List.nodup_iff_count_le_one.mp (recorded.accounts.issued ▸ List.nodup_range) call
  omega

theorem live_or_ended (recorded : Recorded l s) {call : Nat} {ask : Ask}
    (issued : (call, ask) ∈ l.issued) :
    call ∈ s.unfinished ∨ ∃ outcome, (call, outcome) ∈ l.ended := by
  have total := recorded.accounts.balanced call
  have positive : 0 < (l.issued.map Prod.fst).count call :=
    List.count_pos_iff.mpr (List.mem_map_of_mem issued)
  rcases Nat.eq_zero_or_pos (s.unfinished.count call) with none | some
  · have ended : 0 < (l.ended.map Prod.fst).count call := by omega
    obtain ⟨⟨_, outcome⟩, member, rfl⟩ := List.mem_map.mp (List.count_pos_iff.mp ended)
    exact .inr ⟨outcome, member⟩
  · exact .inl (List.count_pos_iff.mp some)

theorem ended_nodup (recorded : Recorded l s) : (l.ended.map Prod.fst).Nodup := by
  refine List.nodup_iff_count_le_one.mpr fun call => ?_
  have total := recorded.accounts.balanced call
  have once : (l.issued.map Prod.fst).count call ≤ 1 :=
    List.nodup_iff_count_le_one.mp (recorded.accounts.issued ▸ List.nodup_range) call
  omega

theorem mem_line (recorded : Recorded l s) (sound : s.Sound) {call : Nat} {params : Json}
    (issued : (call, .request handshakeMethod params) ∈ l.issued) (waits : call ∈ s.unfinished)
    (fresh : s.fresh = []) : call ∈ s.line := by
  rw [CallSide.unfinished_eq, fresh, sound.stalled] at waits
  simp only [List.map_nil, List.nil_append, List.append_nil, List.mem_append, List.mem_map]
    at waits
  rcases waits with (inLine | ⟨r, member, rfl⟩) | watches
  · exact inLine
  · exact absurd issued (recorded.not_handshake_of_routed member)
  · exact absurd issued (recorded.not_handshake_of_watcher watches)

end Recorded

/-- How a handshake call ends when the calls run: it publishes, it is refused behind the handshake
    that was published, it gives the turn up, or it gets the turn over a closed channel. -/
inductive EndsBy (s s' : CallSide) (call : Nat) : Outcome → Prop
  | published {v : Json} (before : s.phase = .uninitialized)
      (after : s'.phase.isInitialized = true) : EndsBy s s' call (.ok v)
  | refused (after : s'.phase.isInitialized = true) (waits : call ∈ s.unstarted)
      (silent : ∀ i, s'.copies ⟨call, i⟩ = 0) : EndsBy s s' call (.error CallSide.invokedTwice)
  | failed {a : Attempt} {i : Nat} {reply : Reply} {e : RpcError}
      (after : s'.phase = .uninitialized) (held : s.attempt = some a) (ours : a.call = call)
      (stage : a.stage = .failed i reply) : EndsBy s s' call (.error e)
  | closed {b : Backend} {i : Nat} {e : RpcError} (after : s'.phase = .uninitialized)
      (waits : call ∈ s.unstarted) (here : s.backends[i]? = some b)
      (silent : s'.copies ⟨call, i⟩ = 0) : EndsBy s s' call (.error e)

theorem CallSide.Proceeds.endsBy {l : Ledger} {s s' : CallSide} (sound : s.Sound)
    (recorded : Recorded l s) {es : List Effect} (proceeds : s.Proceeds s' es) {call : Nat}
    {outcome : Outcome} (ended : (call, outcome) ∈ endings es) {params : Json}
    (handshake : (call, .request handshakeMethod params) ∈ l.issued) :
    EndsBy s s' call outcome := by
  have freed {freed : List (Nat × Outcome)} (free : s.Frees freed)
      (member : (call, outcome) ∈ freed) (after : s'.phase = .uninitialized) :
      EndsBy s s' call outcome := by
    rcases free with ⟨-, rfl⟩ | ⟨a, i, reply, held, stage, rfl⟩
    · cases member
    · obtain ⟨rfl, rfl⟩ := Prod.mk.inj (List.mem_singleton.mp member)
      exact .failed after held rfl stage
  cases proceeds with
  | @starts new ask _ _ fresh started =>
    have here : (new, ask) ∈ l.issued :=
      recorded.accounts.asked.fresh _ (fresh ▸ List.mem_cons_self)
    have waits := CallSide.mem_unstarted_of_fresh fresh
    cases started with
    | watches | queued | routed => cases ended
    -- calls of other kinds end here, which the record of their asks tells apart
    | watched | dropped =>
      cases List.mem_singleton.mp ended
      cases recorded.ask_unique handshake here
    | broadcast before sent silent =>
      rw [endings_append, silent] at ended
      cases List.mem_singleton.mp ended
      cases recorded.ask_unique handshake here
    | early _ other | unrouted _ other =>
      cases List.mem_singleton.mp ended
      have same := recorded.ask_unique handshake here
      rw [Ask.request.injEq] at same
      rw [← same.1] at other
      cases other
    | opened =>
      rw [endings_fanOutEffects] at ended
      cases ended
    | alone uninitialized _ free empty none unsent conclusion =>
      rw [conclusion] at ended
      simp only [List.mem_cons, List.mem_map, Prod.mk.injEq] at ended
      rcases ended with ⟨rfl, rfl⟩ | ⟨w, member, rfl, -⟩
      · exact .published uninitialized rfl
      · exact absurd handshake (recorded.not_handshake_of_watcher member)
    | twice initialized =>
      cases List.mem_singleton.mp ended
      exact .refused initialized waits (sound.no_copies_of_unstarted waits)
  | ends => exact absurd handshake (recorded.not_handshake_of_endRouted ended)
  | turns run =>
    cases run with
    | idle | pending => cases ended
    | published held stage unsent conclusion =>
      rw [conclusion] at ended
      simp only [List.mem_cons, List.mem_append, List.mem_map, Prod.mk.injEq] at ended
      rcases ended with ⟨rfl, rfl⟩ | ⟨w, member, rfl, -⟩ | ⟨w, member, rfl, rfl⟩
      · exact .published (sound.turns (.inl (by simp [held]))).1 rfl
      · exact absurd handshake (recorded.not_handshake_of_watcher member)
      · have waits := CallSide.mem_unstarted_of_waiting member
        exact .refused rfl waits (sound.no_copies_of_unstarted waits)
    | passed free next _ _ conclusion =>
      rw [conclusion] at ended
      exact freed free ended (by
        rw [CallSide.opened_eq]
        exact (sound.turns (.inr (by simp [next]))).1)
    | @drained _ failed bs _ free busy kept sent _ _ conclusion calls errors =>
      have uninitialized := (sound.turns busy).1
      rw [conclusion] at ended
      rcases List.mem_append.mp ended with ended | ended
      · exact freed free ended uninitialized
      · have waits : call ∈ s.unstarted := by
          refine List.mem_append_right _ ?_
          rw [← calls]
          exact List.mem_map_of_mem ended
        obtain ⟨b, member, closed, rfl⟩ := errors _ ended
        obtain ⟨i, bound, rfl⟩ := List.getElem_of_mem member
        refine .closed uninitialized waits (List.getElem?_eq_getElem bound) ?_
        have copies : ({ s with backends := bs } : CallSide).copies ⟨call, i⟩ = _ := sent.copies _
        have shut : s.isOpen i = false := by simp [CallSide.isOpen, bound, closed]
        rw [shut, sound.no_copies_of_unstarted waits] at copies
        exact copies

end Switchboard.Mux
