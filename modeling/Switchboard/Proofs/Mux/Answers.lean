import Switchboard.Proofs.Mux.Permanence

namespace Switchboard.Mux

/-- Every request that is queued or was taken is the one that its call asks for. -/
structure Traced (issued : List (Nat × Ask)) (taken : List (RequestRef × String × Json))
    (s : CallSide) : Prop where
  queued : ∀ {call method params}, CallSide.Queued s.backends call method params →
    (call, .request method params) ∈ issued
  held : ∀ ref, some ref ∈ s.tickets → ∃ method params, (ref, method, params) ∈ taken
  taken : ∀ {ref method params}, (ref, method, params) ∈ taken →
    (ref.call, .request method params) ∈ issued

/-- Requests are answered once, and a handshake has the results for its own. -/
structure Answers (taken : List (RequestRef × String × Json)) (answers : List (RequestRef × Reply))
    (s : CallSide) : Prop where
  taken : ∀ {ref reply}, (ref, reply) ∈ answers → ∃ method params, (ref, method, params) ∈ taken
  spent : ∀ {ref reply}, (ref, reply) ∈ answers →
    s.copies ref = 0 ∧ ref.call < s.nextCall ∧ ref.call ∉ s.unstarted ∧
      ref.backend < s.backends.length
  once : (answers.map Prod.fst).Nodup
  got : ∀ a, s.attempt = some a → ∀ i v,
    a.got i = some (.ok v) ↔ (⟨a.call, i⟩, .ok v) ∈ answers

namespace CallSide

theorem Queued.of_modify {bs : List Backend} (channels : ∀ b ∈ bs, b.IsChannel)
    {f : Backend → Backend} (sub : ∀ b, b.IsChannel → (f b).queue ⊆ b.queue) {index call : Nat}
    {method : String} {params : Json} (queued : Queued (bs.modify index f) call method params) :
    Queued bs call method params := by
  obtain ⟨b', member, here⟩ := queued
  obtain ⟨i, bound, rfl⟩ := List.getElem_of_mem member
  rw [List.getElem_modify] at here
  have inRange : i < bs.length := by simpa using bound
  have old := List.getElem_mem inRange
  split at here
  · exact ⟨_, old, sub _ (channels _ old) here⟩
  · exact ⟨_, old, here⟩

end CallSide

namespace Traced

variable {issued : List (Nat × Ask)} {taken : List (RequestRef × String × Json)} {s : CallSide}

theorem mono (traced : Traced issued taken s) {more : List (Nat × Ask)} (sub : issued ⊆ more) :
    Traced more taken s :=
  { traced with
    queued := fun queued => sub (traced.queued queued)
    taken := fun member => sub (traced.taken member) }

theorem moved (traced : Traced issued taken s) (sound : s.Sound) {s' : CallSide} {d : Ledger}
    (moved : s.Moved s' d) : Traced (issued ++ d.issued) (taken ++ d.taken) s' := by
  have more := traced.mono (List.subset_append_left issued d.issued)
  have dequeued {index call : Nat} {method : String} {params : Json}
      (queued : CallSide.Queued (s.backends.modify index .dequeue) call method params) :
      CallSide.Queued s.backends call method params :=
    queued.of_modify sound.channels fun b channel => by
      rw [channel.queue_dequeue]
      exact (List.tail_sublist _).subset
  cases moved with
  | @taken index b call method params rest here accepting queue =>
    have waiting : CallSide.Queued s.backends call method params :=
      ⟨b, List.mem_of_getElem? here, queue ▸ List.mem_cons_self⟩
    refine ⟨fun queued => more.queued (dequeued queued), fun ref member => ?_, fun member => ?_⟩
    · rcases List.mem_append.mp member with member | member
      · obtain ⟨m, p, before⟩ := traced.held ref member
        exact ⟨m, p, List.mem_append_left _ before⟩
      · cases List.mem_singleton.mp member
        exact ⟨method, params, List.mem_append_right _ List.mem_cons_self⟩
    · rcases List.mem_append.mp member with member | member
      · exact more.taken member
      · cases List.mem_singleton.mp member
        exact more.queued waiting
  | noticed here accepting queue =>
    rw [List.append_nil taken]
    exact { more with queued := fun queued => more.queued (dequeued queued) }
  | answered reply good =>
    rw [List.append_nil taken]
    refine { more with held := fun ref member => more.held ref ?_ }
    rcases List.mem_or_eq_of_mem_set member with before | none
    · exact before
    · cases none
  | closed here accepting =>
    rw [List.append_nil taken]
    refine { more with queued := fun queued => more.queued ?_ }
    exact queued.of_modify sound.channels fun b channel => by
      rw [channel.queue_close]
      exact List.nil_subset _
  | _ =>
    rw [List.append_nil taken]
    exact { more with }

theorem proceeds (traced : Traced issued taken s) (asked : Asked issued s) (sound : s.Sound)
    {s' : CallSide} {es : List Effect} (proceeds : s.Proceeds s' es) :
    Traced issued taken s' := by
  cases proceeds with
  | @starts call ask _ _ fresh started =>
    have here : (call, ask) ∈ issued := asked.fresh _ (fresh ▸ List.mem_cons_self)
    cases started with
    | broadcast initialized sent silent queues =>
      exact { traced with queued := fun queued => traced.queued (queues queued) }
    | opened uninitialized handshake =>
      rw [CallSide.opened_eq]
      refine { traced with queued := fun queued => ?_ }
      rcases CallSide.Queued.of_request sound.channels queued with old | ⟨rfl, rfl, rfl⟩
      · exact traced.queued old
      · rwa [← Asked.handshake_eq handshake]
    | @routed method params b rest initialized other some =>
      have some : s.backends = b :: rest := some
      have channel := sound.channels b (some ▸ List.mem_cons_self)
      refine { traced with queued := fun queued => ?_ }
      obtain ⟨b', member, queue⟩ := queued
      rcases List.mem_cons.mp member with rfl | member
      · have alone : ∀ b' ∈ [b], b'.IsChannel := by simpa using channel
        rcases CallSide.Queued.of_request alone ⟨_, List.mem_cons_self, queue⟩ with
          old | ⟨rfl, rfl, rfl⟩
        · obtain ⟨b', first, queue⟩ := old
          cases List.mem_singleton.mp first
          exact traced.queued ⟨b, some ▸ List.mem_cons_self, queue⟩
        · exact here
      · exact traced.queued ⟨b', some ▸ List.mem_cons_of_mem b member, queue⟩
    | _ => exact { traced with }
  | ends => exact { traced with }
  | turns run =>
    cases run with
    | @passed freed call params rest _ free next =>
      rw [CallSide.opened_eq]
      refine { traced with queued := fun queued => ?_ }
      rcases CallSide.Queued.of_request sound.channels queued with old | ⟨rfl, rfl, rfl⟩
      · exact traced.queued old
      · exact asked.waiting (_, _) (next ▸ List.mem_cons_self)
    | drained free busy kept sent queues =>
      refine { traced with queued := fun queued => ?_ }
      rcases queues queued with old | ⟨rfl, waits⟩
      · exact traced.queued old
      · exact asked.waiting _ waits
    | _ => exact { traced with }

end Traced

namespace Answers

variable {taken : List (RequestRef × String × Json)} {answers : List (RequestRef × Reply)}
  {s : CallSide}

theorem spent_of_keeps (known : Answers taken answers s) {s' : CallSide} (keeps : s.Keeps s')
    {ref : RequestRef} {reply : Reply} (member : (ref, reply) ∈ answers) :
    s'.copies ref = 0 ∧ ref.call < s'.nextCall ∧ ref.call ∉ s'.unstarted ∧
      ref.backend < s'.backends.length := by
  obtain ⟨gone, issued, started, inRange⟩ := known.spent member
  exact ⟨keeps.spent issued started gone, Nat.lt_of_lt_of_le issued keeps.nextCall,
    fun waits => started (keeps.unstarted _ issued waits), keeps.length.symm ▸ inRange⟩

theorem unanswered_of_copies (known : Answers taken answers s) {ref : RequestRef}
    (copies : 0 < s.copies ref) (reply : Reply) : (ref, reply) ∉ answers := by
  intro member
  have gone := (known.spent member).1
  omega

theorem unanswered_of_unstarted (known : Answers taken answers s) {ref : RequestRef}
    (waits : ref.call ∈ s.unstarted) (reply : Reply) : (ref, reply) ∉ answers :=
  fun member => (known.spent member).2.2.1 waits

theorem got_hearAll (known : Answers taken answers s) (sound : s.Sound) {a : Attempt}
    (held : s.attempt = some a) (refs : List RequestRef) (reply : Reply) (i : Nat) (v : Json) :
    (a.hearAll refs reply).got i = some (.ok v) ↔
      (⟨a.call, i⟩, .ok v) ∈ answers ∨
        reply = .ok v ∧ ⟨a.call, i⟩ ∈ refs ∧ 0 < s.copies ⟨a.call, i⟩ := by
  rw [(sound.attempt_wellFormed a held).got_hearAll, ← known.got a held,
    ← sound.attempt_running a held]
  by_cases heard : i ∈ a.running ∧ ⟨a.call, i⟩ ∈ refs
  · have missing := (((sound.attempt_wellFormed a held).mem_running i).mp heard.1).2
    simp [heard, missing]
  · rw [if_neg heard]
    exact (or_iff_left fun h => heard ⟨h.2.2, h.2.1⟩).symm

theorem moved (known : Answers taken answers s) {issued : List (Nat × Ask)}
    (traced : Traced issued taken s) (sound : s.Sound) {s' : CallSide} {d : Ledger}
    (moved : s.Moved s' d) :
    Answers (taken ++ d.taken) (answers ++ d.answers) s' := by
  have keeps := moved.keeps sound
  cases moved with
  | @answered ticket ref reply good =>
    have held := CallSide.mem_tickets good
    have copies := CallSide.copies_pos_of_ticket held
    have single := sound.single ref
    obtain ⟨issued, started, inRange⟩ := sound.requested ref copies
    -- the copy that is answered was the only one
    have left := CallSide.copies_answer good reply ref
    rw [if_pos rfl] at left
    have gone : (s.answer ticket ref reply).copies ref = 0 := by omega
    rw [List.append_nil]
    refine ⟨fun member => ?_, fun member => ?_, ?_, fun a held i v => ?_⟩
    · rcases List.mem_append.mp member with member | member
      · exact known.taken member
      · cases List.mem_singleton.mp member
        exact traced.held ref held
    · rcases List.mem_append.mp member with member | member
      · exact known.spent_of_keeps keeps member
      · cases List.mem_singleton.mp member
        exact ⟨gone, issued, started, inRange⟩
    · rw [List.map_append]
      refine List.nodup_append.mpr ⟨known.once, List.nodup_singleton ref, fun r old r' new e => ?_⟩
      obtain ⟨⟨r, reply'⟩, member, rfl⟩ := List.mem_map.mp old
      have same : r = ref := e.trans (List.mem_singleton.mp new)
      exact known.unanswered_of_copies copies reply' (same ▸ member)
    · obtain ⟨a', held', rfl⟩ := Option.map_eq_some_iff.mp held
      rw [known.got_hearAll sound held', Attempt.hearAll_call, List.mem_append, List.mem_singleton,
        List.mem_singleton, Prod.mk.injEq]
      refine or_congr_right ⟨fun ⟨ok, same, _⟩ => ⟨same, ok.symm⟩, fun ⟨same, ok⟩ =>
        ⟨ok.symm, same, same ▸ copies⟩⟩
  | @closed index b here accepting =>
    rw [List.append_nil, List.append_nil]
    refine ⟨known.taken, known.spent_of_keeps keeps, known.once, fun a held i v => ?_⟩
    obtain ⟨a', held', rfl⟩ := Option.map_eq_some_iff.mp held
    rw [known.got_hearAll sound held', Attempt.hearAll_call]
    simp
  | issued ask =>
    rw [List.append_nil, List.append_nil]
    exact { known with spent := known.spent_of_keeps keeps }
  | cancelled pending =>
    rw [List.append_nil, List.append_nil]
    exact { known with
      spent := known.spent_of_keeps keeps
      got := fun a held => known.got a (Option.filter_eq_some_iff.mp held).1 }
  | tornDown =>
    rw [List.append_nil, List.append_nil]
    exact ⟨known.taken, known.spent_of_keeps keeps, known.once, nofun⟩
  | taken =>
    rw [List.append_nil answers]
    exact {
      taken := fun member => (known.taken member).imp fun _ => Exists.imp fun _ =>
        List.mem_append_left _
      spent := known.spent_of_keeps keeps
      once := known.once
      got := known.got }
  | _ =>
    rw [List.append_nil, List.append_nil]
    exact { known with spent := known.spent_of_keeps keeps }

theorem proceeds (known : Answers taken answers s) (sound : s.Sound) {s' : CallSide}
    {es : List Effect} (proceeds : s.Proceeds s' es) : Answers taken answers s' := by
  have keeps := proceeds.keeps sound
  have began (call : Nat) (params : Json) (waits : call ∈ s.unstarted) (i : Nat) (v : Json) :
      (s.begun call params).got i = some (.ok v) ↔ (⟨call, i⟩, .ok v) ∈ answers :=
    iff_of_false (CallSide.begun_got_ne_ok sound.channels call params i v)
      (known.unanswered_of_unstarted (show (⟨call, i⟩ : RequestRef).call ∈ _ from waits) _)
  refine ⟨known.taken, known.spent_of_keeps keeps, known.once, fun a held => ?_⟩
  cases proceeds with
  | @starts call ask _ _ fresh started =>
    have waits := CallSide.mem_unstarted_of_fresh fresh
    cases started with
    | @opened method params =>
      rw [CallSide.opened_eq] at held
      cases held
      exact began call params waits
    | _ => exact known.got a held
  | ends => exact known.got a held
  | turns run =>
    cases run with
    | pending before stage =>
      cases held
      have same := ((sound.attempt_wellFormed _ before).of_stage_pending stage).2.2
      intro i v
      rw [same]
      exact known.got _ before i v
    | @passed freed call params rest _ free next =>
      rw [CallSide.opened_eq] at held
      cases held
      exact began call params (CallSide.mem_unstarted_of_waiting (next ▸ List.mem_cons_self))
    | idle => exact known.got a held
    | published => cases held
    | drained => cases held

end Answers

end Switchboard.Mux
