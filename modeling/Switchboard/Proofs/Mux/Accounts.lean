import Switchboard.Proofs.Mux.Runs

namespace Switchboard.Mux

namespace CallSide

variable {s : CallSide}

def routedOutcome (s : CallSide) : Reply → Outcome
  | .ok v => .ok v
  | .error e => .error e
  | .panicked _ => .panicked
  | .dropped => .error (s.errorOf 0 .dropped)

theorem endings_endRouted (s : CallSide) :
    endings s.endRouted.2 =
      s.routed.filterMap fun r => r.reply.map fun reply => (r.call, s.routedOutcome reply) := by
  simp only [endRouted]
  induction s.routed with
  | nil => rfl
  | cons r rest ih =>
    rw [List.flatMap_cons, endings_append, ih, List.filterMap_cons]
    cases r.reply with
    | none => rfl
    | some reply => cases reply <;> rfl

theorem mem_endRouted {e : Effect} (member : e ∈ s.endRouted.2) :
    (∃ call outcome, e = .ended call outcome) ∨
      ∃ name method, e = .logged (.requestDropped name method) := by
  obtain ⟨r, -, here⟩ := List.mem_flatMap.mp member
  cases replied : r.reply with
  | none => simp [replied] at here
  | some reply =>
    rw [replied] at here
    cases reply <;> simp [finishRouted] at here <;> rcases here with rfl | rfl <;> simp

/-- The handshake calls that have begun or wait, in the order of their turns. -/
def line (s : CallSide) : List Nat :=
  (s.attempt.map Attempt.call).toList ++ s.waiting.map Prod.fst

theorem unfinished_eq (s : CallSide) :
    s.unfinished = s.fresh.map Prod.fst ++ s.line ++ s.routed.map Routed.call ++ s.watchers ++
      s.stalled := by
  simp only [unfinished, line, List.append_assoc]

theorem mem_unfinished_of_routed {r : Routed} (member : r ∈ s.routed) :
    r.call ∈ s.unfinished := by
  have routed : r.call ∈ s.routed.map Routed.call := List.mem_map_of_mem member
  simp [unfinished_eq, routed]

theorem mem_unfinished_of_fresh {x : Nat × Ask} (fresh : x ∈ s.fresh) : x.1 ∈ s.unfinished := by
  have new : x.1 ∈ s.fresh.map Prod.fst := List.mem_map_of_mem fresh
  simp [unfinished_eq, new]

theorem mem_unfinished_of_attempt {a : Attempt} (held : s.attempt = some a) :
    a.call ∈ s.unfinished := by
  simp [unfinished, held]

theorem mem_unfinished_of_watcher {call : Nat} (watches : call ∈ s.watchers) :
    call ∈ s.unfinished := by
  simp [unfinished, watches]

theorem count_line (s : CallSide) (call : Nat) :
    s.unfinished.count call = (s.fresh.map Prod.fst).count call + s.line.count call +
      (s.routed.map Routed.call).count call + s.watchers.count call + s.stalled.count call := by
  simp only [unfinished_eq, List.count_append]

theorem Frees.count {freed : List (Nat × Outcome)} (free : s.Frees freed) (call : Nat) :
    s.line.count call = (freed.map Prod.fst).count call + (s.waiting.map Prod.fst).count call := by
  rcases free with ⟨none, rfl⟩ | ⟨a, i, reply, held, stage, rfl⟩
  · simp [line, none]
  · simp only [line, held, Option.map_some, Option.toList_some, List.count_append, List.map_cons,
      List.map_nil]

theorem Proceeds.nextCall {s' : CallSide} {es : List Effect} (proceeds : s.Proceeds s' es) :
    s'.nextCall = s.nextCall := by
  cases proceeds with
  | starts fresh started =>
    cases started with
    | opened => rw [opened_eq]
    | _ => rfl
  | ends => rfl
  | turns run =>
    cases run with
    | passed => rw [opened_eq]
    | _ => rfl

theorem Proceeds.conserves {s' : CallSide} {es : List Effect} (proceeds : s.Proceeds s' es)
    (call : Nat) :
    s'.unfinished.count call + ((endings es).map Prod.fst).count call =
      s.unfinished.count call := by
  rw [count_line, count_line]
  cases proceeds with
  | @starts c ask _ _ fresh started =>
    rw [started.fresh, fresh]
    cases started with
    | opened uninitialized handshake free empty some =>
      simp [line, opened_eq, begun_call, show s.attempt = none from free,
        show s.waiting = [] from empty]
    | alone uninitialized handshake free empty none unsent ended =>
      simp [line, ended, List.map_map, Function.comp_def, List.count_cons]
      omega
    | broadcast initialized sent silent queues taken =>
      simp [line, silent]
      omega
    | _ =>
      simp [line]
      omega
  | ends =>
    -- each routed request ends or stays, by whether its reply is there
    have parted : (s.endRouted.1.routed.map Routed.call).count call +
        ((endings s.endRouted.2).map Prod.fst).count call =
          (s.routed.map Routed.call).count call := by
      rw [endings_endRouted]
      simp only [endRouted]
      induction s.routed with
      | nil => rfl
      | cons r rest ih => cases here : r.reply <;> simp [here, List.count_cons] at ih ⊢ <;> omega
    have same : s.endRouted.1.line = s.line ∧ s.endRouted.1.fresh = s.fresh ∧
        s.endRouted.1.watchers = s.watchers ∧ s.endRouted.1.stalled = s.stalled :=
      ⟨rfl, rfl, rfl, rfl⟩
    rw [same.1, same.2.1, same.2.2.1, same.2.2.2]
    omega
  | turns run =>
    cases run with
    | idle => simp
    | pending held stage => simp [line, held]
    | published held stage unsent ended =>
      have waits : (s.waiting.map fun w => (w.1, Outcome.error invokedTwice)).map Prod.fst =
          s.waiting.map Prod.fst := List.map_map
      have watched : (s.watchers.map fun w => (w, Outcome.ok .null)).map Prod.fst = s.watchers := by
        simp [Function.comp_def]
      simp [line, ended, held, waits, watched, List.count_cons, -List.map_map]
      omega
    | passed free next allOpen starts ended =>
      have total := free.count call
      simp only [ended, opened_eq] at total ⊢
      simp [next, line, begun_call, List.count_cons] at total ⊢
      omega
    | drained free busy kept sent queues starts ended calls errors =>
      have total := free.count call
      rw [← calls] at total
      simp [ended, line] at total ⊢
      omega

theorem line_cancel (s : CallSide) (call : Nat) :
    (s.cancel call).line = s.line.filter (· != call) := by
  have held : ((s.attempt.filter fun a => a.call != call).map Attempt.call).toList =
      (s.attempt.map Attempt.call).toList.filter (· != call) := by
    cases s.attempt with
    | none => rfl
    | some a => by_cases same : a.call = call <;> simp [Option.filter, same]
  simp only [line, cancel, List.filter_append, List.filter_map, held]
  rfl

theorem unfinished_cancel (s : CallSide) (call : Nat) :
    (s.cancel call).unfinished = s.unfinished.filter (· != call) := by
  rw [unfinished_eq, unfinished_eq, line_cancel]
  simp only [cancel, List.filter_append, List.filter_map]
  rfl

theorem Moved.conserves (sound : s.Sound) {s' : CallSide} {d : Ledger} (moved : s.Moved s' d)
    (c : Nat) :
    s'.unfinished.count c + (d.ended.map Prod.fst).count c =
      s.unfinished.count c + (d.issued.map Prod.fst).count c := by
  cases moved with
  | issued ask => exact count_issue s ask c
  | @cancelled call pending =>
    have once := List.count_eq_one_of_mem sound.distinct pending
    rw [unfinished_cancel]
    by_cases same : c = call
    · subst same
      simp [once, List.count_eq_zero_of_not_mem]
    · rw [List.count_filter (by simpa using same)]
      simp [Ne.symm same]
  | answered reply good =>
    exact congrArg (List.count c · + 0) (unfinished_heard s _ reply)
  | closed here accepting =>
    exact congrArg (List.count c · + 0) (unfinished_heard s _ .dropped)
  | tornDown =>
    have none : s.tearDown.1.unfinished = [] := rfl
    rw [none]
    simp [Function.comp_def]
  | _ => rfl

end CallSide

def Numbered (issued : List (Nat × Ask)) (s : CallSide) : Prop :=
  issued.map Prod.fst = List.range s.nextCall

namespace Numbered

variable {issued : List (Nat × Ask)} {s : CallSide} {call : Nat} {ask ask' : Ask}

theorem unique (numbered : Numbered issued s) (first : (call, ask) ∈ issued)
    (second : (call, ask') ∈ issued) : ask = ask' := by
  have distinct : (issued.map Prod.fst).Nodup := numbered ▸ List.nodup_range
  exact congrArg Prod.snd (List.inj_on_of_nodup_map distinct first second rfl)

theorem lt (numbered : Numbered issued s) (asked : (call, ask) ∈ issued) : call < s.nextCall := by
  have member := List.mem_map_of_mem (f := Prod.fst) asked
  rw [numbered, List.mem_range] at member
  exact member

theorem moved (numbered : Numbered issued s) {s' : CallSide} {d : Ledger} (moved : s.Moved s' d) :
    Numbered (issued ++ d.issued) s' := by
  rw [Numbered, List.map_append, numbered]
  cases moved with
  | issued ask => exact List.range_succ.symm
  | _ => exact List.append_nil _

end Numbered

/-- Each call that has not ended waits where its ask puts it. -/
structure Asked (issued : List (Nat × Ask)) (s : CallSide) : Prop where
  fresh : ∀ x ∈ s.fresh, x ∈ issued
  attempt : ∀ a, s.attempt = some a → ∃ params, (a.call, .request handshakeMethod params) ∈ issued
  waiting : ∀ w ∈ s.waiting, (w.1, .request handshakeMethod w.2) ∈ issued
  routed : ∀ r ∈ s.routed, isHandshake r.method = false ∧
    ∃ params, (r.call, .request r.method params) ∈ issued
  watchers : ∀ w ∈ s.watchers, (w, .awaitHandshake) ∈ issued

namespace Asked

variable {issued : List (Nat × Ask)} {s : CallSide}

theorem mono (asked : Asked issued s) {more : List (Nat × Ask)} (sub : issued ⊆ more) :
    Asked more s where
  fresh x member := sub (asked.fresh x member)
  attempt a held := (asked.attempt a held).imp fun _ member => sub member
  waiting w member := sub (asked.waiting w member)
  routed r member := (asked.routed r member).imp_right fun h => h.imp fun _ member => sub member
  watchers w member := sub (asked.watchers w member)

theorem heard (asked : Asked issued s) (refs : List RequestRef) (reply : Reply) :
    Asked issued (s.heard refs reply) :=
  { asked with
    attempt := fun a held => by
      obtain ⟨a', held', rfl⟩ := Option.map_eq_some_iff.mp held
      rw [Attempt.hearAll_call]
      exact asked.attempt a' held'
    routed := fun r member => by
      obtain ⟨r', member', rfl⟩ := List.mem_map.mp member
      rw [(Routed.hearAll_call ..).1, (Routed.hearAll_call ..).2]
      exact asked.routed r' member' }

theorem moved (asked : Asked issued s) {s' : CallSide} {d : Ledger} (moved : s.Moved s' d) :
    Asked (issued ++ d.issued) s' := by
  have more := asked.mono (List.subset_append_left issued d.issued)
  cases moved with
  | issued ask =>
    refine { more with fresh := fun x member => ?_ }
    rcases List.mem_append.mp member with member | member
    · exact List.mem_append_left _ (asked.fresh x member)
    · exact List.mem_append_right _ member
  | cancelled pending =>
    exact {
      fresh := fun x member => more.fresh x (List.mem_of_mem_filter member)
      attempt := fun a held => more.attempt a (Option.filter_eq_some_iff.mp held).1
      waiting := fun w member => more.waiting w (List.mem_of_mem_filter member)
      routed := fun r member => more.routed r (List.mem_of_mem_filter member)
      watchers := fun w member => more.watchers w (List.mem_of_mem_filter member) }
  | answered reply good => exact { more.heard _ reply with }
  | closed here accepting => exact { more.heard _ .dropped with }
  | tornDown => exact ⟨nofun, nofun, nofun, nofun, nofun⟩
  | _ => exact { more with }

theorem handshake_eq {method : String} (handshake : isHandshake method = true) :
    method = handshakeMethod := beq_iff_eq.mp handshake

theorem proceeds (asked : Asked issued s) {s' : CallSide} {es : List Effect}
    (proceeds : s.Proceeds s' es) : Asked issued s' := by
  cases proceeds with
  | @starts call ask _ _ fresh started =>
    have here : (call, ask) ∈ issued := asked.fresh _ (by rw [fresh]; exact List.mem_cons_self)
    have rest : Asked issued { s with fresh := [] } := { asked with fresh := nofun }
    cases started with
    | watches =>
      refine { rest with watchers := fun w member => ?_ }
      rcases List.mem_append.mp member with member | member
      · exact asked.watchers w member
      · exact List.mem_singleton.mp member ▸ here
    | queued uninitialized handshake busy =>
      refine { rest with waiting := fun w member => ?_ }
      rcases List.mem_append.mp member with member | member
      · exact asked.waiting w member
      · rw [List.mem_singleton.mp member, ← handshake_eq handshake]
        exact here
    | opened uninitialized handshake free empty some =>
      rw [CallSide.opened_eq]
      refine { rest with attempt := fun a same => ?_ }
      cases same
      rw [CallSide.begun_call, ← handshake_eq handshake]
      exact ⟨_, here⟩
    | alone => exact { rest with watchers := nofun }
    | routed initialized other some =>
      refine { rest with routed := fun r member => ?_ }
      rcases List.mem_append.mp member with member | member
      · exact asked.routed r member
      · rw [List.mem_singleton.mp member]
        exact ⟨other, _, here⟩
    | _ => exact { rest with }
  | ends =>
    exact { asked with routed := fun r member => asked.routed r (List.mem_of_mem_filter member) }
  | turns run =>
    cases run with
    | idle => exact asked
    | pending held stage =>
      refine { asked with attempt := fun a same => ?_ }
      cases same
      have before := asked.attempt _ held
      exact before
    | published =>
      exact { asked with attempt := nofun, waiting := nofun, watchers := nofun }
    | @passed freed call params rest _ free next allOpen starts ended =>
      rw [CallSide.opened_eq]
      refine { asked with
        attempt := fun a same => ?_
        waiting := fun w member => asked.waiting w (next ▸ List.mem_cons_of_mem _ member) }
      cases same
      exact ⟨params, asked.waiting _ (next ▸ List.mem_cons_self)⟩
    | drained => exact { asked with attempt := nofun, waiting := nofun }

end Asked

namespace CallSide

variable {s : CallSide}

def Ordered (s : CallSide) : Prop := (s.line ++ s.fresh.map Prod.fst).Pairwise (· < ·)

theorem line_heard (s : CallSide) (refs : List RequestRef) (reply : Reply) :
    (s.heard refs reply).line = s.line := by
  rw [line, (calls_heard ..).1]
  rfl

theorem Ordered.moved (ordered : s.Ordered) (sound : s.Sound) {s' : CallSide} {d : Ledger}
    (moved : s.Moved s' d) : s'.Ordered := by
  cases moved with
  | issued ask =>
    have bound : ∀ c ∈ s.line ++ s.fresh.map Prod.fst, c < s.nextCall := by
      intro c member
      refine sound.numbered c ?_
      rw [unfinished_eq]
      simp only [List.mem_append] at member ⊢
      tauto
    have last : (s.line ++ s.fresh.map Prod.fst ++ [s.nextCall]).Pairwise (· < ·) :=
      List.pairwise_append.mpr ⟨ordered, List.pairwise_singleton _ _, fun c member n new =>
        List.mem_singleton.mp new ▸ bound c member⟩
    change (s.line ++ (s.fresh ++ [(s.nextCall, ask)]).map Prod.fst).Pairwise _
    rw [List.map_append, ← List.append_assoc]
    exact last
  | cancelled pending =>
    rw [Ordered, line_cancel]
    exact ordered.sublist (List.filter_sublist.append (List.filter_sublist.map _))
  | answered reply good =>
    change ((s.heard _ reply).line ++ _).Pairwise _
    rwa [line_heard]
  | closed here accepting =>
    change ((s.heard _ .dropped).line ++ _).Pairwise _
    rwa [line_heard]
  | tornDown => exact List.Pairwise.nil
  | _ => exact ordered

theorem Ordered.proceeds (ordered : s.Ordered) {s' : CallSide} {es : List Effect}
    (proceeds : s.Proceeds s' es) : s'.Ordered := by
  cases proceeds with
  | @starts call ask _ _ fresh started =>
    rw [Ordered, started.fresh]
    rw [Ordered, fresh] at ordered
    cases started with
    | queued =>
      simp only [line, List.map_append, List.map_cons, List.map_nil] at ordered ⊢
      rwa [List.append_nil, ← List.append_assoc]
    | @opened method params uninitialized handshake free empty some =>
      have alone : (({ s with fresh := [] } : CallSide).opened call params).line = [call] := by
        rw [line, opened_eq]
        simp only [show s.waiting = [] from empty]
        rfl
      rw [alone]
      exact List.pairwise_singleton _ _
    | _ => exact ordered.sublist ((List.Sublist.refl _).append (List.nil_sublist _))
  | ends => exact ordered
  | turns run =>
    cases run with
    | idle => exact ordered
    | pending held stage =>
      rw [Ordered, line, held] at ordered
      exact ordered
    | @passed freed call params rest _ free next allOpen starts ended =>
      rw [Ordered, line, next] at ordered
      rw [Ordered, line, opened_eq]
      exact ordered.sublist ((List.sublist_append_right _ _).append (.refl _))
    | _ => exact ordered.sublist ((List.nil_sublist _).append (.refl _))

end CallSide

/-- The calls on record account for those that have not ended. -/
structure Accounts (l : Ledger) (s : CallSide) : Prop where
  issued : l.issued.map Prod.fst = List.range s.nextCall
  balanced : ∀ c, s.unfinished.count c + (l.ended.map Prod.fst).count c =
    (l.issued.map Prod.fst).count c
  asked : Asked l.issued s
  ordered : s.Ordered

namespace Accounts

variable {l : Ledger} {s : CallSide}

theorem moved (accounts : Accounts l s) (sound : s.Sound) {s' : CallSide} {d : Ledger}
    (moved : s.Moved s' d) : Accounts (l ++ d) s' where
  issued := Numbered.moved accounts.issued moved
  balanced c := by
    have before := accounts.balanced c
    have after := moved.conserves sound c
    simp only [Ledger.issued_append, Ledger.ended_append, List.map_append, List.count_append]
    omega
  asked := accounts.asked.moved moved
  ordered := accounts.ordered.moved sound moved

theorem proceeds (accounts : Accounts l s) {s' : CallSide} {es : List Effect}
    (proceeds : s.Proceeds s' es) : Accounts (l ++ { ended := endings es }) s' where
  issued := by
    rw [Ledger.issued_append, List.append_nil, accounts.issued, proceeds.nextCall]
  balanced c := by
    have before := accounts.balanced c
    have after := proceeds.conserves c
    simp only [Ledger.issued_append, Ledger.ended_append, List.map_append, List.count_append,
      List.map_nil, List.count_nil]
    omega
  asked := by
    rw [Ledger.issued_append, List.append_nil]
    exact accounts.asked.proceeds proceeds
  ordered := accounts.ordered.proceeds proceeds

end Accounts

end Switchboard.Mux
