import Switchboard.Proofs.Mux.SingleHandshake

namespace Switchboard.Mux

def handshakeRequest (w : Nat × Json) : Outbound := .request w.1 handshakeMethod w.2

/-- The message that a call has for the backend at `index`. Only the first one gets requests. -/
def Ask.message? (call index : Nat) : Ask → Option Outbound
  | .notify method params => some (.notification method params)
  | .request method params =>
    if index = 0 ∧ Switchboard.isHandshake method = false then
      some (.request call method params)
    else none
  | .awaitHandshake => none

def queueIn (index : Nat) (bs : List Backend) : List Outbound :=
  (bs[index]?.map Backend.queue).getD []

def reachOf (bs : List Backend) : Nat := (bs.takeWhile Backend.accepts).length

section

variable {bs bs' : List Backend}

theorem any_accepts_congr (same : bs'.map Backend.accepts = bs.map Backend.accepts) (index : Nat) :
    bs'[index]?.any Backend.accepts = bs[index]?.any Backend.accepts := by
  have spec (bs : List Backend) :
      bs[index]?.any Backend.accepts = (bs.map Backend.accepts)[index]?.getD false := by
    rw [List.getElem?_map]
    cases bs[index]? <;> rfl
  rw [spec, spec, same]

theorem queueIn_request (channels : ∀ b ∈ bs, b.IsChannel) (w : Nat × Json) (index : Nat) :
    queueIn index (bs.map fun b => (b.request w.1 handshakeMethod w.2).1) =
      queueIn index bs ++
        if bs[index]?.any Backend.accepts then [handshakeRequest w] else [] := by
  unfold queueIn
  rw [List.getElem?_map]
  cases here : bs[index]? with
  | none => rfl
  | some b =>
    have queue := ((channels b (List.mem_of_getElem? here)).request_eq w.1 handshakeMethod w.2).2
    simp only [Option.map_some, Option.getD_some, Option.any_some, queue]
    split <;> simp [handshakeRequest]

theorem queueIn_requestAll (channels : ∀ b ∈ bs, b.IsChannel) (line : List (Nat × Json))
    (index : Nat) :
    queueIn index (CallSide.requestAll line bs) =
      queueIn index bs ++
        if bs[index]?.any Backend.accepts then line.map handshakeRequest else [] := by
  induction line generalizing bs with
  | nil => simp [CallSide.requestAll]
  | cons w rest ih =>
    have sent := CallSide.SentTo.request channels w.1 handshakeMethod w.2
    have next := ih sent.channels
    rw [any_accepts_congr sent.accepts, queueIn_request channels, List.append_assoc] at next
    refine next.trans ?_
    split <;> simp

theorem queueIn_broadcast (channels : ∀ b ∈ bs, b.IsChannel) (method : String) (params : Json)
    (first index : Nat) :
    queueIn index (CallSide.broadcast method params first bs).1 =
      queueIn index bs ++ if index < reachOf bs then [.notification method params] else [] := by
  induction bs generalizing first index with
  | nil => rfl
  | cons b rest ih =>
    obtain ⟨channel, others⟩ := List.forall_mem_cons.mp channels
    obtain ⟨reply, queue⟩ := channel.notify_eq method params
    cases accepting : b.accepts with
    | true =>
      have reach : reachOf (b :: rest) = reachOf rest + 1 := by simp [reachOf, accepting]
      rw [accepting, if_pos rfl] at reply queue
      simp only [CallSide.broadcast, reply, reach]
      cases index with
      | zero => simp [queueIn, queue]
      | succ i => simpa [queueIn] using ih others (first + 1) i
    | false =>
      have reach : reachOf (b :: rest) = 0 := by simp [reachOf, accepting]
      rw [accepting, if_neg Bool.false_ne_true] at reply queue
      simp only [CallSide.broadcast, reply, reach]
      cases index with
      | zero => simp [queueIn, queue]
      | succ i => simp [queueIn]

theorem broadcast_outcome (channels : ∀ b ∈ bs, b.IsChannel) (method : String) (params : Json)
    (first : Nat) :
    (CallSide.broadcast method params first bs).2.1 =
      some (match bs[reachOf bs]? with
        | none => .ok .null
        | some b => .error b.closedError) := by
  induction bs generalizing first with
  | nil => rfl
  | cons b rest ih =>
    obtain ⟨channel, others⟩ := List.forall_mem_cons.mp channels
    have reply := (channel.notify_eq method params).1
    cases accepting : b.accepts with
    | true =>
      have reach : reachOf (b :: rest) = reachOf rest + 1 := by simp [reachOf, accepting]
      rw [accepting, if_pos rfl] at reply
      simp only [CallSide.broadcast, reply, reach, List.getElem?_cons_succ]
      exact ih others (first + 1)
    | false =>
      have reach : reachOf (b :: rest) = 0 := by simp [reachOf, accepting]
      rw [accepting, if_neg Bool.false_ne_true] at reply
      simp only [CallSide.broadcast, reply, reach, List.getElem?_cons_zero]

end

namespace CallSide

def queueAt (s : CallSide) (index : Nat) : List Outbound := queueIn index s.backends

def reach (s : CallSide) : Nat := reachOf s.backends

/-- Handshake requests for these calls have gone to each open channel. The calls wait no more. -/
structure Begins (issued : List (Nat × Ask)) (s s' : CallSide) (begun : List (Nat × Json)) :
    Prop where
  queues : ∀ i, s'.queueAt i =
    s.queueAt i ++ if s.isOpen i then begun.map handshakeRequest else []
  accepts : s'.backends.map Backend.accepts = s.backends.map Backend.accepts
  started : ∀ c, (begun.map Prod.fst).count c + s'.unstarted.count c ≤ s.unstarted.count c
  asked : ∀ w ∈ begun, (w.1, .request handshakeMethod w.2) ∈ issued

variable {s s' : CallSide} {issued : List (Nat × Ask)}

namespace Begins

theorem nothing (backends : s'.backends = s.backends)
    (fewer : ∀ c, s'.unstarted.count c ≤ s.unstarted.count c) : Begins issued s s' [] where
  queues i := by simp [queueAt, backends]
  accepts := by rw [backends]
  started c := by simpa using fewer c
  asked := nofun

theorem trans {s'' : CallSide} {begun more : List (Nat × Json)} (first : Begins issued s s' begun)
    (second : Begins issued s' s'' more) : Begins issued s s'' (begun ++ more) where
  queues i := by
    have same : s'.isOpen i = s.isOpen i := any_accepts_congr first.accepts i
    rw [second.queues, first.queues, same, List.append_assoc]
    split <;> simp
  accepts := second.accepts.trans first.accepts
  started c := by
    have now := first.started c
    have later := second.started c
    rw [List.map_append, List.count_append]
    omega
  asked w member := (List.mem_append.mp member).elim (first.asked w) (second.asked w)

end Begins

theorem HandshakesRun.begins (channels : ∀ b ∈ s.backends, b.IsChannel) (asked : Asked issued s)
    {es : List Effect} (run : s.HandshakesRun s' es) : ∃ begun, Begins issued s s' begun := by
  cases run with
  | idle => exact ⟨[], .nothing rfl fun _ => Nat.le_refl _⟩
  | pending => exact ⟨[], .nothing rfl fun _ => Nat.le_refl _⟩
  | published =>
    refine ⟨[], .nothing rfl fun c => ?_⟩
    simp [unstarted]
  | @passed _ call params rest _ free next =>
    have sent := SentTo.request channels call handshakeMethod params
    rw [opened_eq]
    exact ⟨[(call, params)], {
      queues := queueIn_request channels (call, params)
      accepts := sent.accepts
      started := fun c => by simp [unstarted, next, List.count_cons]; omega
      asked := fun w member => asked.waiting w (by
        rw [next, List.mem_singleton.mp member]
        exact List.mem_cons_self) }⟩
  | drained _ _ _ sent _ _ _ _ _ requested =>
    exact ⟨s.waiting, {
      queues := fun i => by
        subst requested
        exact queueIn_requestAll channels s.waiting i
      accepts := sent.accepts
      started := fun c => by simp [unstarted]; omega
      asked := asked.waiting }⟩

theorem Started.begins (channels : ∀ b ∈ s.backends, b.IsChannel)
    (uninitialized : s.phase = .uninitialized) {call : Nat} {ask : Ask}
    (fresh : s.fresh = [(call, ask)]) (here : (call, ask) ∈ issued) {es : List Effect}
    (started : Started { s with fresh := [] } call ask s' es) :
    ∃ begun, Begins issued s s' begun := by
  cases started with
  | watches | dropped | early => exact ⟨[], .nothing rfl fun c => by simp [unstarted]⟩
  | alone => exact ⟨[], .nothing rfl fun c => by simp [unstarted]⟩
  | queued =>
    refine ⟨[], .nothing rfl fun c => ?_⟩
    simp only [unstarted, fresh, List.map_append, List.map_cons, List.map_nil, List.count_append,
      List.count_cons, List.count_nil]
    omega
  | @opened method params _ handshake =>
    have sent := SentTo.request channels call handshakeMethod params
    rw [opened_eq]
    exact ⟨[(call, params)], {
      queues := queueIn_request channels (call, params)
      accepts := sent.accepts
      started := fun c => by simp [unstarted, fresh, List.count_cons]; omega
      asked := fun w member => by
        rw [List.mem_singleton.mp member, ← Asked.handshake_eq handshake]
        exact here }⟩
  | watched initialized => exact Phase.clash uninitialized initialized
  | broadcast initialized => exact Phase.clash uninitialized initialized
  | twice initialized => exact Phase.clash uninitialized initialized
  | unrouted initialized => exact Phase.clash uninitialized initialized
  | routed initialized => exact Phase.clash uninitialized initialized

theorem settle_begins (sound : s.Sound) (few : s.fresh.length ≤ 1) (asked : Asked issued s)
    (uninitialized : s.phase = .uninitialized) : ∃ begun, Begins issued s s.settle.1 begun := by
  obtain ⟨s₁, es₁, es₂, started, sound₁, turns, -⟩ := settle_steps sound few
  have ends : Begins issued s₁ s₁.endRouted.1 [] := .nothing rfl fun _ => Nat.le_refl _
  have later (asked₁ : Asked issued s₁) : ∃ begun, Begins issued s₁ s.settle.1 begun := by
    obtain ⟨begun, turned⟩ :=
      turns.begins (sound₁.proceeds .ends).channels (asked₁.proceeds .ends)
    exact ⟨[] ++ begun, ends.trans turned⟩
  rcases started with ⟨-, rfl, -⟩ | ⟨call, ask, fresh, started⟩
  · exact later asked
  · have here : (call, ask) ∈ issued := asked.fresh _ (fresh ▸ List.mem_cons_self)
    obtain ⟨first, begins⟩ := started.begins sound.channels uninitialized fresh here
    obtain ⟨more, turned⟩ := later (asked.proceeds (.starts fresh started))
    exact ⟨first ++ more, begins.trans turned⟩

theorem Started.relays (channels : ∀ b ∈ s.backends, b.IsChannel)
    (initialized : s.phase.isInitialized = true) {call : Nat} {ask : Ask} {es : List Effect}
    (started : s.Started call ask s' es) :
    (∀ i, s'.queueAt i =
      s.queueAt i ++ if i < s.reach then (ask.message? call i).toList else []) ∧
    s'.backends.map Backend.accepts = s.backends.map Backend.accepts := by
  cases started with
  | watches uninitialized => exact Phase.clash uninitialized initialized
  | dropped uninitialized => exact Phase.clash uninitialized initialized
  | early uninitialized => exact Phase.clash uninitialized initialized
  | queued uninitialized => exact Phase.clash uninitialized initialized
  | opened uninitialized => exact Phase.clash uninitialized initialized
  | alone uninitialized => exact Phase.clash uninitialized initialized
  | watched => exact ⟨fun i => by simp [Ask.message?], rfl⟩
  | twice _ handshake => exact ⟨fun i => by simp [Ask.message?, handshake], rfl⟩
  | unrouted _ _ none => exact ⟨fun i => by simp [reach, reachOf, none], rfl⟩
  | @broadcast method params bs _ _ _ sent _ _ taken =>
    have result : (CallSide.broadcast method params 0 s.backends).1 = bs := by
      rcases taken with ⟨-, same⟩ | ⟨_, -, -, -, same⟩ <;> rw [same]
    exact ⟨fun i => result ▸ queueIn_broadcast channels method params 0 i, sent.accepts⟩
  | @routed method params b rest _ other some =>
    have channel : b.IsChannel := channels b (some ▸ List.mem_cons_self)
    have queue := (channel.request_eq call method params).2
    refine ⟨fun i => ?_, by simp [some, channel.accepts_request]⟩
    rw [queueAt, queueAt, some]
    cases i with
    | zero =>
      cases accepting : b.accepts <;>
        simp [queueIn, queue, reach, reachOf, some, accepting, Ask.message?, other]
    | succ i => simp [queueIn, Ask.message?]

theorem HandshakesRun.of_initialized (sound : s.Sound) (initialized : s.phase.isInitialized = true)
    {es : List Effect} (run : s.HandshakesRun s' es) : s' = s ∧ es = [] := by
  have unturned (busy : s.attempt ≠ none ∨ s.waiting ≠ []) : s' = s ∧ es = [] :=
    Phase.clash (sound.turns busy).1 initialized
  cases run with
  | idle => exact ⟨rfl, rfl⟩
  | pending held => exact unturned (.inl (by simp [held]))
  | published held => exact unturned (.inl (by simp [held]))
  | passed _ next => exact unturned (.inr (by simp [next]))
  | drained _ busy => exact unturned busy

theorem settle_relays (sound : s.Sound) (few : s.fresh.length ≤ 1)
    (initialized : s.phase.isInitialized = true) :
    (∀ i, s.settle.1.queueAt i = s.queueAt i ++
      if i < s.reach then s.fresh.filterMap fun x => x.2.message? x.1 i else []) ∧
    s.settle.1.backends.map Backend.accepts = s.backends.map Backend.accepts := by
  obtain ⟨s₁, es₁, es₂, started, sound₁, turns, -⟩ := settle_steps sound few
  have after (initialized₁ : s₁.phase.isInitialized = true) :
      s.settle.1.backends = s₁.backends := by
    rw [(turns.of_initialized (sound₁.proceeds .ends) initialized₁).1]
    rfl
  rcases started with ⟨fresh, rfl, -⟩ | ⟨call, ask, fresh, started⟩
  · have same := after initialized
    exact ⟨fun i => by simp [queueAt, same, fresh], by rw [same]⟩
  · have kept := (Proceeds.starts fresh started).keeps sound
    obtain ⟨agents, phase⟩ : ∃ agents, s.phase = .initialized agents := by
      cases here : s.phase with
      | uninitialized => rw [here] at initialized; cases initialized
      | initialized agents => exact ⟨agents, rfl⟩
    have same := after (by rw [kept.phase agents phase]; rfl)
    obtain ⟨queues, accepts⟩ :=
      started.relays (s := { s with fresh := [] }) sound.channels initialized
    refine ⟨fun i => ?_, by rw [same]; exact accepts⟩
    rw [queueAt, same]
    refine (queues i).trans ?_
    rw [fresh, List.filterMap_cons, List.filterMap_nil]
    cases ask.message? call i <;> rfl

end CallSide

end Switchboard.Mux
