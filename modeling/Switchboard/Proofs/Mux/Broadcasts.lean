import Mathlib.Data.List.Infix
import Switchboard.Proofs.Mux.Gating

namespace Switchboard.Mux

def Outbound.notice? : Outbound → Option (String × Json)
  | .notification method params => some (method, params)
  | .request .. => none

def Ask.notice? : Ask → Option (String × Json)
  | .notify method params => some (method, params)
  | _ => none

theorem notice?_message? (call index : Nat) (ask : Ask) :
    (ask.message? call index).bind Outbound.notice? = ask.notice? := by
  cases ask with
  | request method params =>
    rw [Ask.message?]
    split <;> rfl
  | _ => rfl

section

variable {bs bs' : List Backend}

theorem lt_reachOf {i : Nat} :
    i < reachOf bs ↔ ∀ j ≤ i, bs[j]?.any Backend.accepts = true := by
  induction bs generalizing i with
  | nil =>
    refine iff_of_false (Nat.not_lt_zero i) fun allOpen => ?_
    cases allOpen 0 (Nat.zero_le i)
  | cons b rest ih =>
    cases accepting : b.accepts with
    | false =>
      have none : reachOf (b :: rest) = 0 := by simp [reachOf, accepting]
      rw [none]
      refine iff_of_false (Nat.not_lt_zero i) fun allOpen => ?_
      have first := allOpen 0 (Nat.zero_le i)
      rw [List.getElem?_cons_zero, Option.any_some, accepting] at first
      cases first
    | true =>
      have one : reachOf (b :: rest) = reachOf rest + 1 := by simp [reachOf, accepting]
      rw [one]
      cases i with
      | zero =>
        refine ⟨fun _ j bound => ?_, fun _ => Nat.zero_lt_succ _⟩
        rw [Nat.le_zero.mp bound]
        exact accepting
      | succ i =>
        rw [Nat.add_lt_add_iff_right, ih]
        refine ⟨fun allOpen j bound => ?_, fun allOpen j bound => ?_⟩
        · cases j with
          | zero => exact accepting
          | succ j => exact allOpen j (Nat.le_of_succ_le_succ bound)
        · exact allOpen (j + 1) (Nat.succ_le_succ bound)

theorem reachOf_le
    (closes : ∀ i : Nat, bs'[i]?.any Backend.accepts = true → bs[i]?.any Backend.accepts = true) :
    reachOf bs' ≤ reachOf bs := by
  by_contra more
  have allOpen := lt_reachOf.mp (Nat.lt_of_not_le more)
  exact Nat.lt_irrefl (reachOf bs) (lt_reachOf.mpr fun j bound => closes j (allOpen j bound))

theorem reachOf_eq {k : Nat} (shut : bs[k]?.any Backend.accepts = false)
    (allOpen : ∀ j < k, bs[j]?.any Backend.accepts = true) : reachOf bs = k := by
  refine Nat.le_antisymm (Nat.le_of_not_lt fun beyond => ?_) (Nat.le_of_not_lt fun short => ?_)
  · have here := lt_reachOf.mp beyond k (Nat.le_refl k)
    rw [shut] at here
    cases here
  · exact Nat.lt_irrefl _ (lt_reachOf.mpr fun j bound => allOpen j (Nat.lt_of_le_of_lt bound short))

theorem reachOf_spec (bs : List Backend) :
    (∀ j < reachOf bs, bs[j]?.any Backend.accepts = true) ∧
      bs[reachOf bs]?.any Backend.accepts = false := by
  refine ⟨fun j bound => lt_reachOf.mp bound j (Nat.le_refl j), ?_⟩
  by_contra accepting
  refine Nat.lt_irrefl (reachOf bs) (lt_reachOf.mpr fun j bound => ?_)
  rcases Nat.lt_or_eq_of_le bound with before | rfl
  · exact lt_reachOf.mp before j (Nat.le_refl j)
  · exact Bool.of_not_eq_false accepting

end

namespace CallSide

variable {s s' : CallSide} {d : Ledger}

theorem Moved.isOpen (channels : ∀ b ∈ s.backends, b.IsChannel) (moved : s.Moved s' d) (i : Nat)
    (accepting : s'.isOpen i = true) : s.isOpen i = true := by
  have modified {index : Nat} {f : Backend → Backend}
      (kept : ∀ b ∈ s.backends, (f b).accepts = true → b.accepts = true)
      (accepting : (s.backends.modify index f)[i]?.any Backend.accepts = true) :
      s.backends[i]?.any Backend.accepts = true := by
    rw [List.getElem?_modify] at accepting
    cases here : s.backends[i]? with
    | none =>
      rw [here] at accepting
      cases accepting
    | some b =>
      rw [here] at accepting
      by_cases same : index = i
      · simp only [same, if_true] at accepting
        exact kept b (List.mem_of_getElem? here) accepting
      · simpa [same] using accepting
  have dequeued : ∀ b ∈ s.backends, b.dequeue.accepts = true → b.accepts = true :=
    fun b member accepting => (channels b member).accepts_dequeue.symm.trans accepting
  cases moved with
  | noticed => exact modified dequeued accepting
  | taken => exact modified dequeued accepting
  | closed =>
    refine modified (fun b member accepting => ?_) accepting
    rw [(channels b member).accepts_close] at accepting
    cases accepting
  | _ => exact accepting

end CallSide

namespace Session

/-- The notifications that a channel accepts while these commands run. -/
def notices (index : Nat) (s : Session) (commands : List Command) : List (String × Json) :=
  (s.accepted index commands).filterMap Outbound.notice?

/-- The notifications that are called for once the handshake is published. -/
def notified : Session → List Command → List (String × Json)
  | _, [] => []
  | s, c :: rest =>
    (if s.calls.phase.isInitialized then
      (c.issues (s.step c).2.1).filterMap fun x => x.2.notice?
    else []) ++ (s.step c).1.notified rest

theorem notified_append (s : Session) (before after : List Command) :
    s.notified (before ++ after) = s.notified before ++ (s.run before).notified after := by
  induction before generalizing s with
  | nil => rfl
  | cons c rest ih => rw [List.cons_append, notified, notified, ih, List.append_assoc, run_cons]

theorem notice_relays (s : Session) (index : Nat) (c : Command) :
    (s.relays index c).filterMap Outbound.notice? =
      if index < s.calls.reach then
        (c.issues (s.step c).2.1).filterMap fun x => x.2.notice?
      else [] := by
  rw [relays]
  split
  · rw [List.filterMap_filterMap]
    exact List.filterMap_congr fun x _ => notice?_message? x.1 index x.2
  · rfl

variable {names : List String} {settings : Settings} {commands : List Command}

theorem notices_snoc (index : Nat) (c : Command) :
    (ofNames names settings).notices index (commands ++ [c]) =
      (ofNames names settings).notices index commands ++
        (((ofNames names settings).run commands).enqueued index c).filterMap Outbound.notice? := by
  rw [notices, accepted_snoc, List.filterMap_append, notices]

theorem notice_enqueued (index : Nat) (c : Command) :
    (((ofNames names settings).run commands).enqueued index c).filterMap Outbound.notice? =
      if index < (reached names settings commands).reach then
        ((ofNames names settings).run commands).notified [c]
      else [] := by
  obtain ⟨sound, quiet⟩ := reached_sound names settings commands
  obtain ⟨recorded, -⟩ := reached_recorded names settings commands
  rw [notified, notified, List.append_nil]
  cases phase : ((ofNames names settings).run commands).calls.phase with
  | uninitialized =>
    obtain ⟨begun, begins⟩ := step_begins sound quiet recorded.accounts.asked phase c
    have silent : (begun.map handshakeRequest).filterMap Outbound.notice? = [] := by
      rw [List.filterMap_map]
      exact List.filterMap_eq_nil_iff.mpr fun w _ => rfl
    rw [enqueued_eq (begins.queues index), Phase.isInitialized, if_neg Bool.false_ne_true, ite_self]
    split
    · exact silent
    · rfl
  | initialized agents =>
    rw [enqueued_eq ((step_relays sound quiet (by rw [phase]; rfl) c).1 index), notice_relays]
    rfl

theorem isOpen_snoc (c : Command) (i : Nat)
    (accepting : (reached names settings (commands ++ [c])).isOpen i = true) :
    (reached names settings commands).isOpen i = true := by
  obtain ⟨sound, -⟩ := reached_sound names settings commands
  have moved := act_moved ((ofNames names settings).run commands) c
  rw [reached_isOpen_snoc] at accepting
  exact moved.isOpen sound.channels i accepting

theorem isOpen_of_later (later : List Command) (i : Nat)
    (accepting : (reached names settings (commands ++ later)).isOpen i = true) :
    (reached names settings commands).isOpen i = true := by
  induction later using List.reverseRecOn with
  | nil => rwa [List.append_nil] at accepting
  | append_singleton later c ih =>
    rw [← List.append_assoc] at accepting
    exact ih (isOpen_snoc c i accepting)

/-- Where the notifications of the channels stand: an open channel behind open ones has all, and the
    others have as many as came through to them. -/
structure Noticed (names : List String) (settings : Settings) (commands : List Command) : Prop where
  whole : ∀ i < (reached names settings commands).reach,
    (ofNames names settings).notices i commands = (ofNames names settings).notified commands
  first : ∀ i, (ofNames names settings).notices i commands <+:
    (ofNames names settings).notified commands
  nested : ∀ i j, i ≤ j → (ofNames names settings).notices j commands <+:
    (ofNames names settings).notices i commands

theorem noticed (names : List String) (settings : Settings) (commands : List Command) :
    Noticed names settings commands := by
  induction commands using List.reverseRecOn with
  | nil => exact ⟨fun _ _ => rfl, fun _ => List.prefix_rfl, fun _ _ _ => List.prefix_rfl⟩
  | append_singleton before c ih =>
    have closes : (reached names settings (before ++ [c])).reach ≤
        (reached names settings before).reach := reachOf_le (isOpen_snoc c)
    have all := notified_append (ofNames names settings) before [c]
    have grows (i : Nat) : (ofNames names settings).notices i (before ++ [c]) =
        (ofNames names settings).notices i before ++
          if i < (reached names settings before).reach then
            ((ofNames names settings).run before).notified [c]
          else [] := by
      rw [notices_snoc, notice_enqueued]
    refine ⟨fun i bound => ?_, fun i => ?_, fun i j le => ?_⟩
    -- what is within reach now was so before, and has all that came then
    · have through := Nat.lt_of_lt_of_le bound closes
      rw [grows, all, if_pos through, ih.whole i through]
    · rw [grows, all]
      split
      · rename_i through
        rw [ih.whole i through]
      · rw [List.append_nil]
        exact (ih.first i).trans (List.prefix_append ..)
    · rw [grows, grows]
      by_cases through : j < (reached names settings before).reach
      · have before := Nat.lt_of_le_of_lt le through
        rw [if_pos through, if_pos before, ih.whole j through, ih.whole i before]
      · rw [if_neg through, List.append_nil]
        exact (ih.nested i j le).trans (List.prefix_append ..)

theorem notices_of_closed {k i : Nat} (shut : (reached names settings commands).isOpen k = false)
    (behind : k ≤ i) (later : List Command) :
    (ofNames names settings).notices i (commands ++ later) =
      (ofNames names settings).notices i commands := by
  induction later using List.reverseRecOn with
  | nil => rw [List.append_nil]
  | append_singleton later c ih =>
    have beyond : ¬i < (reached names settings (commands ++ later)).reach := fun through => by
      have here := isOpen_of_later later k (lt_reachOf.mp through k behind)
      rw [shut] at here
      cases here
    rw [← List.append_assoc, notices_snoc, notice_enqueued, if_neg beyond, List.append_nil, ih]

/-- A broadcast in this state comes to the channels in front of `k`, and nothing else changes but
    that a number is used. -/
structure Broadcasts (s : Session) (method : String) (params : Json) (k : Nat) (outcome : Outcome) :
    Prop where
  ended : endings (s.step (.calls (.call (.notify method params)))).2.2 =
    [(s.calls.nextCall, outcome)]
  enqueued : ∀ i, s.enqueued i (.calls (.call (.notify method params))) =
    if i < k then [.notification method params] else []
  queues : ∀ i, (s.step (.calls (.call (.notify method params)))).1.calls.queueAt i =
    s.calls.queueAt i ++ s.enqueued i (.calls (.call (.notify method params)))
  names : (s.step (.calls (.call (.notify method params)))).1.calls.backends.map Backend.name =
    s.calls.backends.map Backend.name
  accepts : (s.step (.calls (.call (.notify method params)))).1.calls.backends.map
    Backend.accepts = s.calls.backends.map Backend.accepts
  others : (s.step (.calls (.call (.notify method params)))).1 =
    { s with
      calls := { s.calls with
        backends := (s.step (.calls (.call (.notify method params)))).1.calls.backends
        nextCall := s.calls.nextCall + 1 } }

theorem step_broadcasts {s : Session} (settled : s.Settled) (sound : s.calls.Sound)
    (alive : s.isAlive = true) (initialized : s.calls.phase.isInitialized = true)
    (method : String) (params : Json) :
    Broadcasts s method params s.calls.reach
      (match s.calls.backends[s.calls.reach]? with
        | none => .ok .null
        | some b => .error b.closedError) := by
  obtain ⟨calls, es, started, settles⟩ := settled.step_call sound alive (.notify method params)
  have result := broadcast_outcome sound.channels method params 0
  obtain ⟨queues, accepts⟩ := step_relays sound settled.calls initialized
    (.calls (.call (.notify method params)))
  have acted := act_call alive (.notify method params)
  cases started with
  | dropped uninitialized => exact Phase.clash uninitialized initialized
  | @broadcast _ _ bs outcome es _ sent silent _ taken =>
    obtain ⟨⟨fresh, attempt, waiting, routed⟩, -, -⟩ := settled
    have step := settles ⟨fresh, attempt, waiting, routed⟩
    -- the broadcast ends at the first closed channel, if there is one
    have outcome_eq : outcome = match s.calls.backends[s.calls.reach]? with
        | none => .ok .null
        | some b => .error b.closedError := by
      rw [CallSide.reach]
      rcases taken with ⟨rfl, same⟩ | ⟨b, -, -, rfl, same⟩
      · rw [same] at result
        cases here : s.calls.backends[reachOf s.calls.backends]? with
        | none => rfl
        | some b => rw [here] at result; cases result
      · rw [same] at result
        cases here : s.calls.backends[reachOf s.calls.backends]? with
        | none => rw [here] at result; cases result
        | some b' =>
          rw [here] at result
          simp only [Option.some.injEq, Reply.error.injEq] at result
          rw [result]
    have relays (i : Nat) : s.relays i (.calls (.call (.notify method params))) =
        if i < s.calls.reach then [.notification method params] else [] := by
      rw [Session.relays, step]
      rfl
    refine {
      ended := by rw [step, endings_append, silent, ← outcome_eq]; rfl
      enqueued := fun i => (enqueued_eq (queues i)).trans (relays i)
      queues := fun i => ?_
      names := by rw [step]; exact sent.names
      accepts := by rw [accepts, acted]; rfl
      others := by rw [step] }
    rw [enqueued_eq (queues i), queues i, acted]
    rfl

theorem broadcasts_of_closed {k : Nat} {name : String}
    (alive : ((ofNames names settings).run commands).isAlive = true)
    (initialized : (reached names settings commands).phase.isInitialized = true)
    (here : names[k]? = some name) (shut : (reached names settings commands).isOpen k = false)
    (before : ∀ j < k, (reached names settings commands).isOpen j = true) (method : String)
    (params : Json) :
    Broadcasts ((ofNames names settings).run commands) method params k
      (.error ⟨-32803, "backend '" ++ name ++ "': channel closed", none⟩) := by
  have broadcasts := step_broadcasts (reached_settled names settings commands)
    (reached_sound names settings commands).1 alive initialized method params
  have reach : ((ofNames names settings).run commands).calls.reach = k := reachOf_eq shut before
  rw [reach] at broadcasts
  obtain ⟨b, found, rfl⟩ := backend_of_name names settings commands here
  rw [show ((ofNames names settings).run commands).calls.backends[k]? = some b from found]
    at broadcasts
  exact broadcasts

theorem broadcasts_of_open (alive : ((ofNames names settings).run commands).isAlive = true)
    (initialized : (reached names settings commands).phase.isInitialized = true)
    (allOpen : ∀ i < names.length, (reached names settings commands).isOpen i = true)
    (method : String) (params : Json) :
    Broadcasts ((ofNames names settings).run commands) method params names.length
      (.ok .null) := by
  have broadcasts := step_broadcasts (reached_settled names settings commands)
    (reached_sound names settings commands).1 alive initialized method params
  have length := reached_length names settings commands
  have none : ((ofNames names settings).run commands).calls.backends[names.length]? = none :=
    List.getElem?_eq_none (Nat.le_of_eq length)
  have reach : ((ofNames names settings).run commands).calls.reach = names.length :=
    reachOf_eq (by rw [none]; rfl) allOpen
  rw [reach, none] at broadcasts
  exact broadcasts

theorem first_closed {k : Nat} (inRange : k < names.length)
    (shut : (reached names settings commands).isOpen k = false) :
    ∃ k' name, k' ≤ k ∧ names[k']? = some name ∧
      (reached names settings commands).isOpen k' = false ∧
      ∀ j < k', (reached names settings commands).isOpen j = true := by
  obtain ⟨before, first⟩ := reachOf_spec (reached names settings commands).backends
  have bound : reachOf (reached names settings commands).backends ≤ k :=
    Nat.le_of_not_lt fun beyond => by
      have here := before k beyond
      rw [show (reached names settings commands).backends[k]?.any Backend.accepts = _ from shut]
        at here
      cases here
  exact ⟨_, _, bound, List.getElem?_eq_getElem (Nat.lt_of_le_of_lt bound inRange), first, before⟩

/-- The notifications of a backend are the first of those of each backend before it, and those of
    the first backend are the first of those that were called for. A broadcast ends at the first
    closed channel, and then all later ones end there or before. -/
theorem broadcast_law (names : List String) (settings : Settings) (commands : List Command) :
    let start := ofNames names settings
    let now := start.run commands
    (∀ i j, i < j → start.notices j commands <+: start.notices i commands) ∧
    start.notices 0 commands <+: start.notified commands ∧
    (now.isAlive = true → now.calls.phase.isInitialized = true → ∀ method params,
      ((∀ i < names.length, now.calls.isOpen i = true) →
        Broadcasts now method params names.length (.ok .null)) ∧
      ∀ k name, names[k]? = some name → now.calls.isOpen k = false →
        (∀ j < k, now.calls.isOpen j = true) →
        Broadcasts now method params k
          (.error ⟨-32803, "backend '" ++ name ++ "': channel closed", none⟩)) ∧
    ∀ k < names.length, now.calls.isOpen k = false → ∀ later,
      (∀ i, k ≤ i → start.notices i (commands ++ later) = start.notices i commands) ∧
      let then' := start.run (commands ++ later)
      (then'.isAlive = true → then'.calls.phase.isInitialized = true →
        ∀ method params, ∃ k' name, k' ≤ k ∧ names[k']? = some name ∧
          Broadcasts then' method params k'
            (.error ⟨-32803, "backend '" ++ name ++ "': channel closed", none⟩)) := by
  have noticed := noticed names settings commands
  refine ⟨fun i j before => noticed.nested i j (Nat.le_of_lt before), noticed.first 0,
    fun alive initialized method params => ⟨fun allOpen => ?_, fun k name here shut before => ?_⟩,
    fun k inRange shut later => ⟨fun i behind => ?_, fun alive initialized method params => ?_⟩⟩
  · exact broadcasts_of_open alive initialized allOpen method params
  · exact broadcasts_of_closed alive initialized here shut before method params
  · exact notices_of_closed shut behind later
  · have still : (reached names settings (commands ++ later)).isOpen k = false :=
      Bool.eq_false_iff.mpr fun accepting => by
        have here := isOpen_of_later later k accepting
        rw [show (reached names settings commands).isOpen k = _ from shut] at here
        cases here
    obtain ⟨k', name, bound, here, shut', before⟩ := first_closed inRange still
    exact ⟨k', name, bound, here,
      broadcasts_of_closed alive initialized here shut' before method params⟩

theorem broadcast_law_of_closed_channel :
    let commands : List Command := [.calls (.call (.request handshakeMethod .null)),
      .calls (.receive 0), .calls (.receive 1),
      .calls (.respond 0 .null), .calls (.respond 1 .null)]
    let now := (ofNames ["a", "b"] {}).run commands
    let later := (ofNames ["a", "b"] {}).run (commands ++ [.calls (.closeOutbound 1)])
    Broadcasts now "m" .null 2 (.ok .null) ∧
      Broadcasts later "m" .null 1 (.error ⟨-32803, "backend 'b': channel closed", none⟩) := by
  intro commands now later
  obtain ⟨-, -, allOpen, -⟩ := broadcast_law ["a", "b"] {} commands
  obtain ⟨-, -, shut, -⟩ := broadcast_law ["a", "b"] {} (commands ++ [.calls (.closeOutbound 1)])
  refine ⟨(allOpen rfl rfl "m" .null).1 fun i bound => ?_,
    (shut rfl rfl "m" .null).2 1 "b" rfl rfl fun j bound => ?_⟩
  · match i, bound with
    | 0, _ | 1, _ => rfl
  · match j, bound with
    | 0, _ => rfl

end Session

end Switchboard.Mux
