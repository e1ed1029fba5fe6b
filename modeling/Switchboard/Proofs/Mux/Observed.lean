import Switchboard.Proofs.Mux.Announcements

namespace Switchboard.Mux

variable {issued : List (Nat × Ask)} {ended : List (Nat × Outcome)} {d : Ledger}
  {s s' : CallSide} {es : List Effect}

theorem Asked.happens (asked : Asked issued s) (happens : s.Happens s' es) : Asked issued s' := by
  have later {x : Nat × Ask} {rest : List (Nat × Ask)} (fresh : s.fresh = x :: rest) :
      ∀ y ∈ rest, y ∈ issued := fun y member =>
    asked.fresh y (fresh ▸ List.mem_cons_of_mem _ member)
  have first {x : Nat × Ask} {rest : List (Nat × Ask)} (fresh : s.fresh = x :: rest) :
      x ∈ issued := asked.fresh x (fresh ▸ List.mem_cons_self)
  cases happens with
  | watches fresh =>
    refine { asked with fresh := later fresh, watchers := fun w member => ?_ }
    rcases List.mem_append.mp member with member | member
    · exact asked.watchers w member
    · exact List.mem_singleton.mp member ▸ first fresh
  | watched fresh | concludes fresh | stalls fresh => exact { asked with fresh := later fresh }
  | routes fresh other =>
    refine { asked with fresh := later fresh, routed := fun r member => ?_ }
    rcases List.mem_append.mp member with member | member
    · exact asked.routed r member
    · rw [List.mem_singleton.mp member]
      exact ⟨other, _, first fresh⟩
  | queues fresh handshake =>
    refine { asked with fresh := later fresh, waiting := fun w member => ?_ }
    rcases List.mem_append.mp member with member | member
    · exact asked.waiting w member
    · rw [List.mem_singleton.mp member, ← Asked.handshake_eq handshake]
      exact first fresh
  | opens fresh handshake =>
    rw [CallSide.opened_eq]
    refine { asked with fresh := later fresh, attempt := fun a held => ?_ }
    cases held
    rw [CallSide.begun_call, ← Asked.handshake_eq handshake]
    exact ⟨_, first fresh⟩
  | @turns call params rest next =>
    rw [CallSide.opened_eq]
    refine { asked with
      attempt := fun a held => ?_
      waiting := fun w member => asked.waiting w (next ▸ List.mem_cons_of_mem _ member) }
    cases held
    exact ⟨params, asked.waiting _ (next ▸ List.mem_cons_self)⟩
  | refuses next =>
    exact { asked with
      waiting := fun w member => asked.waiting w (next ▸ List.mem_cons_of_mem _ member) }
  | advances held =>
    unfold CallSide.advance
    split
    · refine { asked with attempt := fun a' same => ?_ }
      cases same
      have before := asked.attempt _ held
      exact before
    · exact { asked with attempt := nofun, watchers := nofun }
    · exact { asked with attempt := nofun }
  | ends =>
    exact { asked with routed := fun r member => asked.routed r (List.mem_of_mem_filter member) }

/-- The calls on record are numbered in order, and those that have not ended are among them. -/
structure Booked (issued : List (Nat × Ask)) (ended : List (Nat × Outcome)) (s : CallSide) :
    Prop where
  numbered : Numbered issued s
  asked : Asked issued s
  stalled : ∀ call ∈ s.stalled, ∃ method params, (call, .notify method params) ∈ issued
  ended : ∀ e ∈ ended, e.1 < s.nextCall

namespace Booked

theorem unfinished_lt (booked : Booked issued ended s) {call : Nat} (waits : call ∈ s.unfinished) :
    call < s.nextCall := by
  simp only [CallSide.unfinished, List.mem_append, List.mem_map, Option.mem_toList,
    Option.map_eq_some_iff] at waits
  rcases waits with ((((⟨x, member, rfl⟩ | ⟨a, held, rfl⟩) | ⟨w, member, rfl⟩) | ⟨r, member, rfl⟩) |
    watches) | stalls
  · exact booked.numbered.lt (booked.asked.fresh x member)
  · obtain ⟨_, issued⟩ := booked.asked.attempt a held
    exact booked.numbered.lt issued
  · exact booked.numbered.lt (booked.asked.waiting w member)
  · obtain ⟨-, _, issued⟩ := booked.asked.routed r member
    exact booked.numbered.lt issued
  · exact booked.numbered.lt (booked.asked.watchers call watches)
  · obtain ⟨_, _, issued⟩ := booked.stalled call stalls
    exact booked.numbered.lt issued

end Booked

namespace CallSide

theorem Happens.nextCall (happens : s.Happens s' es) : s'.nextCall = s.nextCall := by
  cases happens with
  | opens | turns => rw [opened_eq]
  | advances =>
    unfold advance
    split <;> rfl
  | _ => rfl

theorem Happens.kept (happens : s.Happens s' es) : Kept s.backends s'.backends := by
  have requested (bs : List Backend) (call : Nat) (method : String) (params : Json) :
      Kept bs (bs.map fun b => (b.request call method params).1) :=
    ⟨by simp, fun channels => (SentTo.request channels call method params).channels,
      fun channels => (SentTo.request channels call method params).accepts⟩
  cases happens with
  | concludes _ _ _ kept | stalls _ kept => exact kept
  | @routes call method params rest b others fresh other some =>
    rw [some]
    refine ⟨by simp, fun channels => ?_, fun channels => ?_⟩
    · obtain ⟨first, rest⟩ := List.forall_mem_cons.mp channels
      exact List.forall_mem_cons.mpr ⟨first.request call method params, rest⟩
    · have first := channels b List.mem_cons_self
      rw [List.map_cons, List.map_cons, first.accepts_request]
  | opens | turns =>
    rw [opened_eq]
    exact requested ..
  | advances =>
    rw [backends_advance]
    exact .refl _
  | _ => exact .refl _

theorem Happens.ended_unfinished (happens : s.Happens s' es) {call : Nat} {outcome : Outcome}
    (ended : (call, outcome) ∈ endings es) : call ∈ s.unfinished := by
  have first {x : Nat × Ask} {rest : List (Nat × Ask)} (fresh : s.fresh = x :: rest) :
      x.1 ∈ s.unfinished := mem_unfinished_of_fresh (fresh ▸ List.mem_cons_self)
  cases happens with
  | watches | queues => cases ended
  | opens | turns =>
    rw [endings_fanOutEffects] at ended
    cases ended
  | watched fresh =>
    cases List.mem_singleton.mp ended
    exact first fresh
  | concludes fresh _ _ _ plain =>
    rw [endings_append, endings_of_plain plain] at ended
    cases List.mem_singleton.mp ended
    exact first fresh
  | stalls _ _ plain =>
    rw [endings_of_plain plain] at ended
    cases ended
  | routes => cases ended
  | refuses next =>
    cases List.mem_singleton.mp ended
    refine mem_unfinished_of_unstarted (List.mem_append_right _ ?_)
    rw [next]
    exact List.mem_cons_self
  | @advances a held =>
    unfold advance at ended
    split at ended
    · cases ended
    · rw [endings_publish] at ended
      rcases List.mem_cons.mp ended with same | watches
      · cases same
        exact mem_unfinished_of_attempt held
      · obtain ⟨w, member, same⟩ := List.mem_map.mp watches
        cases same
        exact mem_unfinished_of_watcher member
    · rw [endings_failAttempt] at ended
      cases List.mem_singleton.mp ended
      exact mem_unfinished_of_attempt held
  | ends =>
    rw [endings_endRouted] at ended
    obtain ⟨r, member, replied⟩ := List.mem_filterMap.mp ended
    obtain ⟨reply, -, same⟩ := Option.map_eq_some_iff.mp replied
    cases same
    exact mem_unfinished_of_routed member

end CallSide

namespace Booked

theorem happens (booked : Booked issued ended s) (happens : s.Happens s' es) :
    Booked issued (ended ++ endings es) s' where
  numbered := booked.numbered.trans (by rw [happens.nextCall])
  asked := booked.asked.happens happens
  stalled := by
    cases happens with
    | stalls fresh =>
      intro call member
      rcases List.mem_append.mp member with member | member
      · exact booked.stalled call member
      · rw [List.mem_singleton.mp member]
        exact ⟨_, _, booked.asked.fresh _ (fresh ▸ List.mem_cons_self)⟩
    | opens | turns =>
      rw [CallSide.opened_eq]
      exact booked.stalled
    | advances =>
      unfold CallSide.advance
      split <;> exact booked.stalled
    | _ => exact booked.stalled
  ended e member := by
    rw [happens.nextCall]
    rcases List.mem_append.mp member with before | now
    · exact booked.ended e before
    · exact booked.unfinished_lt (happens.ended_unfinished now)

theorem moved (booked : Booked issued ended s) (moved : s.Moved s' d) :
    Booked (issued ++ d.issued) (ended ++ d.ended) s' where
  numbered := booked.numbered.moved moved
  asked := booked.asked.moved moved
  stalled := by
    have more : ∀ call ∈ s.stalled,
        ∃ method params, (call, .notify method params) ∈ issued ++ d.issued := fun call member => by
      obtain ⟨method, params, asked⟩ := booked.stalled call member
      exact ⟨method, params, List.mem_append_left _ asked⟩
    cases moved with
    | cancelled => exact fun call member => more call (List.mem_of_mem_filter member)
    | tornDown => exact nofun
    | _ => exact more
  ended e member := by
    have bound : e.1 < s.nextCall := by
      rcases List.mem_append.mp member with before | now
      · exact booked.ended e before
      · cases moved with
        | cancelled pending =>
          cases List.mem_singleton.mp now
          exact booked.unfinished_lt pending
        | tornDown =>
          obtain ⟨call, waits, rfl⟩ := List.mem_map.mp now
          exact booked.unfinished_lt waits
        | _ => cases now
    cases moved with
    | issued => exact Nat.lt_succ_of_lt bound
    | _ => exact bound

end Booked

/-- The handshake under way is in order, and one that was published has all backends. -/
structure Staged (s : CallSide) : Prop where
  unpublished : s.Unpublished
  attempt : ∀ a, s.attempt = some a → a.WellFormed s.backends.length
  agents : ∀ agents, s.phase = .initialized agents →
    agents.map Agent.name = s.backends.map Backend.name
  watchers : s.phase.isInitialized = true → s.watchers = []

namespace Staged

theorem happens (staged : Staged s) (happens : s.Happens s' es) : Staged s' where
  unpublished := (happens.announces staged.unpublished).unpublished
  attempt := by
    have length : s'.backends.length = s.backends.length := by
      simpa using congrArg List.length happens.kept.names
    rw [length]
    cases happens with
    | opens | turns =>
      intro a held
      rw [CallSide.opened_eq] at held
      cases held
      exact CallSide.begun_wellFormed ..
    | advances held =>
      unfold CallSide.advance
      split
      · rename_i stage
        intro a same
        cases same
        exact ((staged.attempt _ held).of_stage_pending stage).2.1
      · exact nofun
      · exact nofun
    | _ => exact staged.attempt
  agents := by
    rw [happens.kept.names]
    cases happens with
    | opens | turns =>
      rw [CallSide.opened_eq]
      exact staged.agents
    | advances held =>
      unfold CallSide.advance
      split
      · exact staged.agents
      · rename_i stage
        intro agents same
        cases same
        obtain ⟨values, length, rfl, -⟩ := (staged.attempt _ held).of_stage_complete stage
        rw [CallSide.Sound.agentsOf_values, List.map_zipWith]
        refine List.ext_getElem (by simp [length]) fun i bound bound' => ?_
        simp
      · exact staged.agents
    | _ => exact staged.agents
  watchers := by
    cases happens with
    | watches _ uninitialized => exact fun initialized => Phase.clash uninitialized initialized
    | opens _ _ uninitialized | turns _ uninitialized =>
      rw [CallSide.opened_eq]
      exact fun initialized => Phase.clash uninitialized initialized
    | advances held =>
      unfold CallSide.advance
      split
      · exact staged.watchers
      · exact fun _ => rfl
      · exact staged.watchers
    | _ => exact staged.watchers

theorem moved (staged : Staged s) (moved : s.Moved s' d) : Staged s' := by
  have phase := moved.phase
  have unpublished := moved.unpublished staged.unpublished
  have heard (refs : List RequestRef) (reply : Reply) :
      ∀ a, (s.heard refs reply).attempt = some a → a.WellFormed s.backends.length := by
    intro a same
    obtain ⟨a', held, rfl⟩ := Option.map_eq_some_iff.mp same
    exact (staged.attempt a' held).hearAll refs reply
  have names {f : Backend → Backend} (kept : ∀ b, (f b).name = b.name) (index : Nat) :=
    CallSide.names_modify kept s.backends index
  cases moved with
  | rest | issued => exact { staged with }
  | cancelled =>
    exact ⟨unpublished, fun a held => staged.attempt a (Option.filter_eq_some_iff.mp held).1,
      staged.agents, fun initialized => by
        rw [CallSide.cancel, staged.watchers initialized]
        rfl⟩
  | @noticed index | @taken index =>
    exact ⟨unpublished, by simpa using staged.attempt, fun agents same =>
      (staged.agents agents same).trans (names Backend.name_dequeue index).symm, staged.watchers⟩
  | answered reply good =>
    exact ⟨unpublished, heard _ reply, staged.agents, staged.watchers⟩
  | @closed index b =>
    exact ⟨unpublished, by simpa using heard _ .dropped, fun agents same =>
      (staged.agents agents same).trans (names Backend.name_close index).symm, staged.watchers⟩
  | tornDown =>
    exact ⟨unpublished, fun a held => absurd held (by simp [CallSide.tearDown]), staged.agents,
      fun _ => rfl⟩

end Staged

/-- Nobody is told of the handshake before a call has brought it about. -/
def Heralded (issued : List (Nat × Ask)) (ended : List (Nat × Outcome)) : Prop :=
  ∀ before after call outcome, ended = before ++ (call, outcome) :: after →
    (call, .awaitHandshake) ∈ issued → outcome = .cancelled ∨ outcome = .ok .null ∧
      ∃ c v params, (c, .ok v) ∈ before ∧ (c, .request handshakeMethod params) ∈ issued

theorem Heralded.append {new : List (Nat × Outcome)} (heralded : Heralded issued ended)
    (next : ∀ before after call outcome, new = before ++ (call, outcome) :: after →
      (call, .awaitHandshake) ∈ issued → outcome = .cancelled ∨ outcome = .ok .null ∧
        ∃ c v params, (c, .ok v) ∈ ended ++ before ∧
          (c, .request handshakeMethod params) ∈ issued) :
    Heralded issued (ended ++ new) := by
  intro before after call outcome split waits
  rcases List.append_eq_append_iff.mp split with ⟨more, rfl, here⟩ | ⟨more, rfl, here⟩
  · exact next more after call outcome here waits
  · cases more with
    | nil =>
      rw [List.append_nil] at next
      simpa using next [] after call outcome here.symm waits
    | cons e more =>
      obtain ⟨rfl, -⟩ := List.cons.inj here
      exact heralded before more call outcome rfl waits

/-- Who waits for the handshake, who has been told of it, and whether a call has brought it
    about. -/
structure Told (issued : List (Nat × Ask)) (ended : List (Nat × Outcome)) (s : CallSide) :
    Prop where
  waits : ∀ {call}, (call, .awaitHandshake) ∈ issued →
    (call, .awaitHandshake) ∈ s.fresh ∨ call ∈ s.watchers ∨ ∃ outcome, (call, outcome) ∈ ended
  heralded : Heralded issued ended
  published : s.phase.isInitialized = true ↔ ∃ c v params, (c, .ok v) ∈ ended ∧
    (c, .request handshakeMethod params) ∈ issued

namespace Told

theorem carries (told : Told issued ended s) {new : List (Nat × Outcome)}
    (waits : ∀ {call}, (call, .awaitHandshake) ∈ s.fresh ∨ call ∈ s.watchers →
      (call, .awaitHandshake) ∈ s'.fresh ∨ call ∈ s'.watchers ∨ ∃ outcome, (call, outcome) ∈ new)
    {call : Nat} (asked : (call, .awaitHandshake) ∈ issued) :
    (call, .awaitHandshake) ∈ s'.fresh ∨ call ∈ s'.watchers ∨
      ∃ outcome, (call, outcome) ∈ ended ++ new := by
  have now (live : (call, .awaitHandshake) ∈ s.fresh ∨ call ∈ s.watchers) :=
    (waits live).imp_right (Or.imp_right (Exists.imp fun _ => List.mem_append_right ended))
  rcases told.waits asked with fresh | watches | ⟨outcome, before⟩
  · exact now (.inl fresh)
  · exact now (.inr watches)
  · exact .inr (.inr ⟨outcome, List.mem_append_left _ before⟩)

theorem silent (told : Told issued ended s) (phase : s'.phase = s.phase)
    {new : List (Nat × Outcome)}
    (waits : ∀ {call}, (call, .awaitHandshake) ∈ s.fresh ∨ call ∈ s.watchers →
      (call, .awaitHandshake) ∈ s'.fresh ∨ call ∈ s'.watchers)
    (others : ∀ {call outcome}, (call, outcome) ∈ new → (call, .awaitHandshake) ∉ issued ∧
      ∀ v params, outcome = .ok v → (call, .request handshakeMethod params) ∉ issued) :
    Told issued (ended ++ new) s' := by
  refine ⟨told.carries fun live => (waits live).imp_right .inl, ?_, ?_⟩
  · refine told.heralded.append fun before after call outcome split asked => ?_
    exact absurd asked (others (split ▸ List.mem_append_right _ List.mem_cons_self)).1
  · rw [phase, told.published]
    refine exists_congr fun c => exists_congr fun v => exists_congr fun params =>
      and_congr_left fun asked => ⟨List.mem_append_left _, fun member => ?_⟩
    exact (List.mem_append.mp member).resolve_right fun now => (others now).2 v params rfl asked

theorem tells (told : Told issued ended s) {call : Nat} {rest : List (Nat × Ask)}
    (fresh : s.fresh = (call, .awaitHandshake) :: rest)
    (initialized : s.phase.isInitialized = true) :
    Told issued (ended ++ [(call, .ok .null)]) { s with fresh := rest } := by
  obtain ⟨c, v, params, success, handshake⟩ := told.published.mp initialized
  refine ⟨told.carries fun {w} waits => ?_, ?_, iff_of_true initialized
    ⟨c, v, params, List.mem_append_left _ success, handshake⟩⟩
  · rcases waits with member | watches
    · rw [fresh] at member
      rcases List.mem_cons.mp member with same | member
      · cases same
        exact .inr (.inr ⟨_, List.mem_cons_self⟩)
      · exact .inl member
    · exact .inr (.inl watches)
  · refine told.heralded.append fun before after w outcome split waits => ?_
    have last : (w, outcome) ∈ [(call, Outcome.ok .null)] :=
      split ▸ List.mem_append_right _ List.mem_cons_self
    cases List.mem_singleton.mp last
    exact .inr ⟨rfl, c, v, params, List.mem_append_left _ success, handshake⟩

theorem publishes (told : Told issued ended s) {call : Nat} {params v : Json}
    (asked : (call, .request handshakeMethod params) ∈ issued)
    (other : (call, .awaitHandshake) ∉ issued) (fresh : s'.fresh = s.fresh)
    (initialized : s'.phase.isInitialized = true) :
    Told issued (ended ++ (call, .ok v) :: s.watchers.map fun w => (w, .ok .null)) s' := by
  refine ⟨told.carries fun {w} waits => ?_, ?_, iff_of_true initialized
    ⟨call, v, params, List.mem_append_right _ List.mem_cons_self, asked⟩⟩
  · rcases waits with new | watches
    · exact .inl (fresh ▸ new)
    · exact .inr (.inr ⟨.ok .null, List.mem_cons_of_mem _ (List.mem_map_of_mem watches)⟩)
  · refine told.heralded.append fun before after w outcome split waits => ?_
    cases before with
    | nil =>
      cases split
      exact absurd waits other
    | cons e before =>
      obtain ⟨rfl, told⟩ := List.cons.inj split
      have member : (w, outcome) ∈ s.watchers.map fun w => (w, Outcome.ok .null) :=
        told ▸ List.mem_append_right _ List.mem_cons_self
      obtain ⟨_, -, same⟩ := List.mem_map.mp member
      cases same
      exact .inr ⟨rfl, call, v, params, List.mem_append_right _ List.mem_cons_self, asked⟩

theorem advances (told : Told issued ended s) (booked : Booked issued ended s) {a : Attempt}
    (held : s.attempt = some a) :
    Told issued (ended ++ endings (s.advance a).2) (s.advance a).1 := by
  obtain ⟨params, asked⟩ := booked.asked.attempt a held
  have other : (a.call, .awaitHandshake) ∉ issued := fun waits => by
    cases booked.numbered.unique asked waits
  unfold CallSide.advance
  split
  · exact told.silent (by rfl) id nofun
  · rw [CallSide.endings_publish]
    exact told.publishes asked other rfl rfl
  · refine told.silent (by rfl) id fun ended => ?_
    rw [CallSide.endings_failAttempt] at ended
    cases List.mem_singleton.mp ended
    exact ⟨other, nofun⟩

theorem happens (told : Told issued ended s) (booked : Booked issued ended s)
    (happens : s.Happens s' es) : Told issued (ended ++ endings es) s' := by
  -- a new call that starts leaves the calls behind it new
  have others {x : Nat × Ask} {rest : List (Nat × Ask)} {watchers : List Nat}
      (fresh : s.fresh = x :: rest) (other : x.2 ≠ .awaitHandshake) {call : Nat}
      (waits : (call, .awaitHandshake) ∈ s.fresh ∨ call ∈ watchers) :
      (call, .awaitHandshake) ∈ rest ∨ call ∈ watchers := by
    refine waits.imp_left fun member => ?_
    rw [fresh] at member
    rcases List.mem_cons.mp member with rfl | member
    · exact absurd rfl other
    · exact member
  have quiet {es : List Effect} {waiting : Prop} (plain : ∀ e ∈ es, e.isPlain = true)
      {call : Nat} {outcome : Outcome} (ended : (call, outcome) ∈ endings es) : waiting := by
    rw [endings_of_plain plain] at ended
    cases ended
  have sent {params : Json} {waiting : Prop} {call : Nat} {outcome : Outcome}
      (ended : (call, outcome) ∈ endings (CallSide.fanOutEffects s.backends params)) :
      waiting := by
    rw [CallSide.endings_fanOutEffects] at ended
    cases ended
  cases happens with
  | @watches call rest fresh =>
    refine told.silent (by rfl) (fun {c} waits => ?_) nofun
    rcases waits with member | member
    · rw [fresh] at member
      rcases List.mem_cons.mp member with same | member
      · cases same
        exact .inr (List.mem_append_right _ List.mem_cons_self)
      · exact .inl member
    · exact .inr (List.mem_append_left _ member)
  | watched fresh initialized => exact told.tells fresh initialized
  | @concludes call ask rest bs outcome es fresh other refused names plain =>
    have asked := booked.asked.fresh _ (fresh ▸ List.mem_cons_self)
    refine told.silent (by rfl) (others fresh other) fun {c outcome'} ended => ?_
    rw [endings_append, endings_of_plain plain] at ended
    cases List.mem_singleton.mp ended
    refine ⟨fun waits => other (booked.numbered.unique asked waits), ?_⟩
    intro v params ok handshake
    rw [refused (by rw [booked.numbered.unique asked handshake]; rfl)] at ok
    cases ok
  | stalls fresh _ plain => exact told.silent (by rfl) (others fresh nofun) (quiet plain)
  | routes fresh => exact told.silent (by rfl) (others fresh nofun) nofun
  | queues fresh => exact told.silent (by rfl) (others fresh nofun) nofun
  | opens fresh =>
    rw [CallSide.opened_eq]
    exact told.silent (by rfl) (others fresh nofun) sent
  | turns =>
    rw [CallSide.opened_eq]
    exact told.silent (by rfl) id sent
  | refuses next =>
    refine told.silent (by rfl) id fun ended => ?_
    cases List.mem_singleton.mp ended
    have asked := booked.asked.waiting _ (next ▸ List.mem_cons_self)
    refine ⟨fun waits => ?_, nofun⟩
    cases booked.numbered.unique asked waits
  | advances held => exact told.advances booked held
  | ends =>
    refine told.silent (by rfl) id fun ended => ?_
    rw [CallSide.endings_endRouted] at ended
    obtain ⟨r, member, replied⟩ := List.mem_filterMap.mp ended
    obtain ⟨reply, -, same⟩ := Option.map_eq_some_iff.mp replied
    cases same
    obtain ⟨method, params, asked⟩ := booked.asked.routed r member
    refine ⟨fun waits => ?_, fun v params' ok handshake => ?_⟩
    · cases booked.numbered.unique asked waits
    · have same := booked.numbered.unique asked handshake
      rw [Ask.request.injEq] at same
      rw [same.1] at method
      cases method

theorem cancelled (told : Told issued ended s) (phase : s'.phase = s.phase)
    {new : List (Nat × Outcome)} (cancels : ∀ e ∈ new, e.2 = .cancelled)
    (waits : ∀ {call}, (call, .awaitHandshake) ∈ s.fresh ∨ call ∈ s.watchers →
      (call, .awaitHandshake) ∈ s'.fresh ∨ call ∈ s'.watchers ∨
        ∃ outcome, (call, outcome) ∈ new) :
    Told issued (ended ++ new) s' := by
  refine ⟨told.carries waits, ?_, ?_⟩
  · refine told.heralded.append fun before after call outcome split _ => .inl ?_
    exact cancels (call, outcome) (split ▸ List.mem_append_right _ List.mem_cons_self)
  · rw [phase, told.published]
    refine exists_congr fun c => exists_congr fun v => exists_congr fun params =>
      and_congr_left fun _ => ⟨List.mem_append_left _, fun member => ?_⟩
    refine (List.mem_append.mp member).resolve_right fun now => ?_
    cases cancels _ now

theorem issues (told : Told issued ended s) (booked : Booked issued ended s) (ask : Ask) :
    Told (issued ++ [(s.nextCall, ask)]) ended (s.issue ask).1 := by
  have old {call : Nat} {outcome : Outcome} {ask' : Ask} (before : (call, outcome) ∈ ended)
      (asked : (call, ask') ∈ issued ++ [(s.nextCall, ask)]) : (call, ask') ∈ issued := by
    refine (List.mem_append.mp asked).resolve_right fun new => ?_
    cases List.mem_singleton.mp new
    exact Nat.lt_irrefl _ (booked.ended _ before)
  refine ⟨fun {call} asked => ?_, fun before after call outcome split asked => ?_, ?_⟩
  · rcases List.mem_append.mp asked with asked | new
    · exact (told.waits asked).imp_left (List.mem_append_left _)
    · exact .inl (List.mem_append_right _ new)
  · have member : (call, outcome) ∈ ended := split ▸ List.mem_append_right _ List.mem_cons_self
    refine (told.heralded before after call outcome split (old member asked)).imp_right ?_
    rintro ⟨ok, c, v, params, success, handshake⟩
    exact ⟨ok, c, v, params, success, List.mem_append_left _ handshake⟩
  · refine told.published.trans (exists_congr fun c => exists_congr fun v =>
      exists_congr fun params => and_congr_right fun success => ?_)
    exact ⟨List.mem_append_left _, old success⟩

theorem moved (told : Told issued ended s) (booked : Booked issued ended s)
    (moved : s.Moved s' d) : Told (issued ++ d.issued) (ended ++ d.ended) s' := by
  cases moved with
  | issued ask =>
    rw [List.append_nil]
    exact told.issues booked ask
  | @cancelled call pending =>
    rw [List.append_nil]
    refine told.cancelled (by rfl) (fun e member => ?_) fun {c} waits => ?_
    · rw [List.mem_singleton.mp member]
    · by_cases same : c = call
      · subst same
        exact .inr (.inr ⟨.cancelled, List.mem_cons_self⟩)
      · have other : (c != call) = true := by simpa using same
        exact waits.imp (fun member => List.mem_filter.mpr ⟨member, other⟩)
          fun member => .inl (List.mem_filter.mpr ⟨member, other⟩)
  | tornDown =>
    rw [List.append_nil]
    refine told.cancelled (by rfl) (fun e member => ?_) fun {c} waits => .inr (.inr ?_)
    · obtain ⟨_, -, rfl⟩ := List.mem_map.mp member
      rfl
    · have pending : c ∈ s.unfinished := waits.elim
        (fun fresh => CallSide.mem_unfinished_of_fresh fresh) CallSide.mem_unfinished_of_watcher
      exact ⟨.cancelled, List.mem_map_of_mem pending⟩
  | _ =>
    rw [List.append_nil issued]
    exact told.silent (by rfl) id nofun

end Told

end Switchboard.Mux
