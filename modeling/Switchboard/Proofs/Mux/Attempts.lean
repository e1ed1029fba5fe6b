import Mathlib.Data.List.Nodup
import Mathlib.Data.Set.List
import Switchboard.Mux.CallSide.Handshake
import Switchboard.Proofs.Mux.Channels

namespace Switchboard.Mux

namespace Attempt

/-- The reply of a backend among results that were joined and replies that were not. -/
def replyIn (results : List (Option Json)) (finished : List (Nat × Reply)) (backend : Nat) :
    Option Reply :=
  match results[backend]?.join with
  | some value => some (.ok value)
  | none => (finished.find? fun r => r.1 == backend).map Prod.snd

def got (a : Attempt) (backend : Nat) : Option Reply := replyIn a.results a.finished backend

/-- Each of `n` backends has a task that runs, or one that has its reply, or a joined result. -/
structure WellFormed (a : Attempt) (n : Nat) : Prop where
  length : a.results.length = n
  running_nodup : a.running.Nodup
  finished_nodup : (a.finished.map Prod.fst).Nodup
  unjoined : ∀ r ∈ a.finished, a.results[r.1]? = some none
  mem_running : ∀ i, i ∈ a.running ↔ i < n ∧ a.got i = none

variable {a : Attempt} {n : Nat}

theorem find?_fst_eq_none {finished : List (Nat × Reply)} {backend : Nat} :
    finished.find? (fun r => r.1 == backend) = none ↔ backend ∉ finished.map Prod.fst := by
  simp only [List.find?_eq_none, beq_iff_eq, List.mem_map, not_exists, not_and]

theorem replyIn_of_unjoined {results : List (Option Json)} {finished : List (Nat × Reply)}
    {backend : Nat} (unjoined : results[backend]? = some none) :
    replyIn results finished backend =
      (finished.find? fun r => r.1 == backend).map Prod.snd := by
  simp [replyIn, unjoined]

theorem replyIn_of_joined {results : List (Option Json)} {finished : List (Nat × Reply)}
    {backend : Nat} {value : Json} (joined : results[backend]? = some (some value)) :
    replyIn results finished backend = some (.ok value) := by
  simp [replyIn, joined]

theorem WellFormed.unjoined_of_running (wf : a.WellFormed n) {i : Nat} (running : i ∈ a.running) :
    a.results[i]? = some none ∧ i ∉ a.finished.map Prod.fst := by
  obtain ⟨bound, missing⟩ := (wf.mem_running i).mp running
  have inRange : i < a.results.length := wf.length ▸ bound
  cases joined : a.results[i] with
  | some value =>
    have present : a.got i = some (.ok value) :=
      replyIn_of_joined (by rw [List.getElem?_eq_getElem inRange, joined])
    rw [missing] at present
    cases present
  | none =>
    have here : a.results[i]? = some none := by rw [List.getElem?_eq_getElem inRange, joined]
    refine ⟨here, ?_⟩
    rw [got, replyIn_of_unjoined here, Option.map_eq_none_iff] at missing
    exact find?_fst_eq_none.mp missing

theorem got_arrive (wf : a.WellFormed n) {i : Nat} (running : i ∈ a.running) (reply : Reply)
    (j : Nat) : (a.arrive i reply).got j = if j = i then some reply else a.got j := by
  obtain ⟨here, unknown⟩ := wf.unjoined_of_running running
  by_cases same : j = i
  · subst same
    have absent := find?_fst_eq_none.mpr unknown
    rw [if_pos rfl, got, arrive, replyIn_of_unjoined here, List.find?_append, absent]
    simp
  · have differs : (i == j) = false := by simpa using fun e => same e.symm
    rw [if_neg same, got, got, arrive]
    simp only [replyIn, List.find?_append, List.find?_singleton, differs, Bool.false_eq_true,
      if_false, Option.or_none]

theorem WellFormed.arrive (wf : a.WellFormed n) {i : Nat} (running : i ∈ a.running)
    (reply : Reply) : (a.arrive i reply).WellFormed n := by
  obtain ⟨here, unknown⟩ := wf.unjoined_of_running running
  refine ⟨wf.length, wf.running_nodup.erase i, ?_, ?_, ?_⟩
  · have distinct := wf.finished_nodup
    simp only [Attempt.arrive, List.map_append, List.map_cons, List.map_nil]
    exact List.nodup_append.mpr ⟨distinct, List.nodup_singleton i, fun x hx y hy e => by
      rw [List.mem_singleton] at hy
      exact unknown (hy ▸ e ▸ hx)⟩
  · intro r member
    rcases List.mem_append.mp member with member | member
    · exact wf.unjoined r member
    · rw [List.mem_singleton] at member
      subst member
      exact here
  · intro j
    rw [got_arrive wf running]
    change j ∈ a.running.erase i ↔ _
    rw [wf.running_nodup.mem_erase_iff, wf.mem_running]
    by_cases same : j = i <;> simp [same]

theorem replyIn_of_join_ok : ∀ {finished : List (Nat × Reply)}
    {results joined : List (Option Json)},
    (finished.map Prod.fst).Nodup → (∀ r ∈ finished, results[r.1]? = some none) →
    join finished results = .ok joined →
    joined.length = results.length ∧ ∀ i, replyIn joined [] i = replyIn results finished i
  | [], results, joined, _, _, ok => by
    cases ok
    exact ⟨rfl, fun _ => rfl⟩
  | (k, reply) :: rest, results, joined, distinct, unjoined, ok => by
    cases reply with
    | ok value =>
      rw [join] at ok
      have here := unjoined (k, .ok value) List.mem_cons_self
      have inRange : k < results.length := (List.getElem?_eq_some_iff.mp here).1
      rw [List.map_cons, List.nodup_cons] at distinct
      have later : ∀ r ∈ rest, (results.set k (some value))[r.1]? = some none := by
        intro r member
        have other : k ≠ r.1 := fun e => distinct.1 (List.mem_map.mpr ⟨r, member, e.symm⟩)
        rw [List.getElem?_set_ne other]
        exact unjoined r (List.mem_cons_of_mem _ member)
      obtain ⟨length, known⟩ := replyIn_of_join_ok distinct.2 later ok
      refine ⟨by rw [length, List.length_set], fun i => ?_⟩
      rw [known]
      by_cases same : k = i
      · subst same
        have joined : (results.set k (some value))[k]? = some (some value) :=
          List.getElem?_set_self inRange
        rw [replyIn_of_joined joined, replyIn_of_unjoined here]
        simp
      · have differs : (k == i) = false := by simpa using same
        simp only [replyIn, List.getElem?_set_ne same, List.find?_cons, differs]
    | error e => cases ok
    | dropped => cases ok
    | panicked text => cases ok

theorem mem_of_join_error : ∀ {finished : List (Nat × Reply)} {results : List (Option Json)}
    {failure : Nat × Reply}, join finished results = .error failure →
    failure ∈ finished ∧ ∀ value, failure.2 ≠ .ok value
  | [], _, _, failed => by cases failed
  | (k, reply) :: rest, results, failure, failed => by
    cases reply with
    | ok value =>
      rw [join] at failed
      obtain ⟨member, notOk⟩ := mem_of_join_error failed
      exact ⟨List.mem_cons_of_mem _ member, notOk⟩
    | error e => cases failed; exact ⟨List.mem_cons_self, fun _ h => by cases h⟩
    | dropped => cases failed; exact ⟨List.mem_cons_self, fun _ h => by cases h⟩
    | panicked text => cases failed; exact ⟨List.mem_cons_self, fun _ h => by cases h⟩

theorem WellFormed.of_stage_pending (wf : a.WellFormed n) {results : List (Option Json)}
    (stage : a.stage = .pending results) :
    a.running ≠ [] ∧ ({ a with finished := [], results } : Attempt).WellFormed n ∧
      ∀ i, ({ a with finished := [], results } : Attempt).got i = a.got i := by
  unfold Attempt.stage at stage
  split at stage
  · cases stage
  · rename_i joined ok
    obtain ⟨length, known⟩ := replyIn_of_join_ok wf.finished_nodup wf.unjoined ok
    split at stage
    · cases stage
    · rename_i running
      cases stage
      refine ⟨fun none => running (by simp [none]),
        ⟨length.trans wf.length, wf.running_nodup, List.nodup_nil, by simp, fun i => ?_⟩, known⟩
      rw [wf.mem_running, got, got, known]

theorem WellFormed.of_stage_complete (wf : a.WellFormed n) {results : List (Option Json)}
    (stage : a.stage = .complete results) :
    ∃ values : List Json, values.length = n ∧ results = values.map some ∧
      ∀ i v, values[i]? = some v ↔ i < n ∧ a.got i = some (.ok v) := by
  unfold Attempt.stage at stage
  split at stage
  · cases stage
  · rename_i joined ok
    obtain ⟨length, known⟩ := replyIn_of_join_ok wf.finished_nodup wf.unjoined ok
    split at stage
    · rename_i running
      cases stage
      have size : results.length = n := length.trans wf.length
      have all : ∀ r ∈ results, ∃ value, some value = r := by
        intro r member
        obtain ⟨i, bound, rfl⟩ := List.getElem_of_mem member
        cases present : results[i] with
        | some value => exact ⟨value, rfl⟩
        | none =>
          have missing : a.got i = none := by
            rw [got, ← known, replyIn_of_unjoined (by rw [List.getElem?_eq_getElem bound, present])]
            rfl
          have still := (wf.mem_running i).mpr ⟨size ▸ bound, missing⟩
          rw [List.isEmpty_iff.mp running] at still
          cases still
      -- so the results are those of all backends, in their order
      obtain ⟨values, rfl⟩ := (Set.range_list_map some).ge all
      rw [List.length_map] at size
      refine ⟨values, size, rfl, fun i v => ?_⟩
      rw [got, ← known]
      cases here : values[i]? with
      | none => simp [replyIn, here]
      | some value =>
        have bound : i < n := size ▸ (List.getElem?_eq_some_iff.mp here).1
        rw [replyIn_of_joined (by rw [List.getElem?_map, here]; rfl)]
        simp [bound]
    · cases stage

theorem of_stage_failed {i : Nat} {reply : Reply} (stage : a.stage = .failed i reply) :
    (i, reply) ∈ a.finished ∧ ∀ value, reply ≠ .ok value := by
  unfold Attempt.stage at stage
  split at stage
  · rename_i failed
    cases stage
    exact mem_of_join_error failed
  · split at stage <;> cases stage

end Attempt

namespace CallSide

theorem fanOut_eq (call : Nat) (params : Json) (index : Nat) (backends : List Backend) :
    fanOut call params index backends =
      (backends.map fun b => (b.request call handshakeMethod params).1,
        (backends.zipIdx index).filterMap fun e =>
          (e.1.request call handshakeMethod params).2.map (e.2, ·),
        (backends.zipIdx index).map fun e =>
          .sent e.2 e.1.name true handshakeMethod params e.1.accepts) := by
  induction backends generalizing index with
  | nil => rfl
  | cons b rest ih =>
    simp only [fanOut, ih, List.map_cons, List.zipIdx_cons, List.filterMap_cons]
    cases (b.request call handshakeMethod params).2 <;> rfl

variable {s : CallSide}

def fanOutEffects (backends : List Backend) (params : Json) : List Effect :=
  .logged (.handshaking backends.length) :: (backends.zipIdx).map fun e =>
    .sent e.2 e.1.name true handshakeMethod params e.1.accepts

def begun (s : CallSide) (call : Nat) (params : Json) : Attempt :=
  (s.openAttempt call params).2.1

theorem openAttempt_eq (s : CallSide) (call : Nat) (params : Json) :
    s.openAttempt call params =
      ({ s with backends := s.backends.map fun b => (b.request call handshakeMethod params).1 },
        s.begun call params, fanOutEffects s.backends params) := by
  simp only [begun, openAttempt, fanOut_eq, fanOutEffects]

theorem openAttempt_effects (s : CallSide) (call : Nat) (params : Json) :
    (s.openAttempt call params).2.2 = fanOutEffects s.backends params := by
  rw [openAttempt_eq]

theorem fanOutEffects_request {backends : List Backend} (channels : ∀ b ∈ backends, b.IsChannel)
    (call : Nat) (method : String) (sent params : Json) :
    fanOutEffects (backends.map fun b => (b.request call method sent).1) params =
      fanOutEffects backends params := by
  rw [fanOutEffects, fanOutEffects, List.length_map, List.zipIdx_map, List.map_map]
  refine congrArg _ (List.map_congr_left fun e member => ?_)
  obtain ⟨-, -, same⟩ := List.mem_zipIdx member
  have channel := channels e.1 (same ▸ List.getElem_mem _)
  simp [channel.accepts_request]

theorem begun_call (s : CallSide) (call : Nat) (params : Json) :
    (s.begun call params).call = call := rfl

theorem mem_begun_finished {call : Nat} {params : Json} {i : Nat} {reply : Reply} :
    (i, reply) ∈ (s.begun call params).finished ↔
      ∃ b, s.backends[i]? = some b ∧ (b.request call handshakeMethod params).2 = some reply := by
  simp only [begun, openAttempt, fanOut_eq, List.mem_filterMap, Option.map_eq_some_iff,
    Prod.mk.injEq, Prod.exists, List.mem_zipIdx_iff_getElem?]
  constructor
  · rintro ⟨b, j, here, r, replied, rfl, rfl⟩
    exact ⟨b, here, replied⟩
  · rintro ⟨b, here, replied⟩
    exact ⟨b, i, here, reply, replied, rfl, rfl⟩

theorem begun_finished_nodup (s : CallSide) (call : Nat) (params : Json) :
    ((s.begun call params).finished.map Prod.fst).Nodup := by
  have indices : s.backends.zipIdx.Pairwise fun e e' => e.2 ≠ e'.2 := by
    apply List.pairwise_map.mp
    rw [List.zipIdx_map_snd]
    exact List.nodup_range'
  simp only [begun, openAttempt, fanOut_eq]
  refine List.pairwise_map.mpr (List.pairwise_filterMap.mpr (indices.imp ?_))
  intro e e' differ r replied r' replied'
  obtain ⟨_, -, rfl⟩ := Option.map_eq_some_iff.mp replied
  obtain ⟨_, -, rfl⟩ := Option.map_eq_some_iff.mp replied'
  exact differ

theorem mem_begun_running {call : Nat} {params : Json} {i : Nat} :
    i ∈ (s.begun call params).running ↔
      ∃ b, s.backends[i]? = some b ∧ (b.request call handshakeMethod params).2 = none := by
  have shape : i ∈ (s.begun call params).running ↔
      i < s.backends.length ∧ ∀ reply, (i, reply) ∉ (s.begun call params).finished := by
    simp only [begun, openAttempt, List.mem_filter, List.mem_range, Bool.not_eq_true',
      List.any_eq_false, beq_iff_eq, Prod.forall]
    exact and_congr_right fun _ =>
      ⟨fun h reply member => h i reply member rfl, fun h j reply member e => h reply (e ▸ member)⟩
  rw [shape]
  simp only [mem_begun_finished, not_exists, not_and]
  constructor
  · rintro ⟨bound, silent⟩
    refine ⟨s.backends[i], List.getElem?_eq_getElem bound, ?_⟩
    rw [Option.eq_none_iff_forall_ne_some]
    exact fun reply => silent reply _ (List.getElem?_eq_getElem bound)
  · rintro ⟨b, here, silent⟩
    refine ⟨(List.getElem?_eq_some_iff.mp here).1, fun reply b' here' => ?_⟩
    rw [here, Option.some.injEq] at here'
    rw [← here', silent]
    exact nofun

theorem begun_wellFormed (s : CallSide) (call : Nat) (params : Json) :
    (s.begun call params).WellFormed s.backends.length := by
  have unjoined : ∀ i < s.backends.length, (s.begun call params).results[i]? = some none := by
    intro i bound
    simp [begun, openAttempt, bound]
  refine ⟨by simp [begun, openAttempt], ?_, begun_finished_nodup s call params, ?_, fun i => ?_⟩
  · simp only [begun, openAttempt]
    exact List.nodup_range.filter _
  · intro r member
    obtain ⟨b, here, -⟩ := mem_begun_finished.mp member
    exact unjoined _ (List.getElem?_eq_some_iff.mp here).1
  · rw [mem_begun_running]
    constructor
    · rintro ⟨b, here, silent⟩
      have bound := (List.getElem?_eq_some_iff.mp here).1
      refine ⟨bound, ?_⟩
      rw [Attempt.got, Attempt.replyIn_of_unjoined (unjoined i bound), Option.map_eq_none_iff,
        Attempt.find?_fst_eq_none, List.mem_map]
      rintro ⟨⟨j, reply⟩, member, rfl⟩
      obtain ⟨b', here', replied⟩ := mem_begun_finished.mp member
      rw [here, Option.some.injEq] at here'
      rw [← here', silent] at replied
      cases replied
    · rintro ⟨bound, missing⟩
      refine ⟨s.backends[i], List.getElem?_eq_getElem bound, ?_⟩
      rw [Attempt.got, Attempt.replyIn_of_unjoined (unjoined i bound), Option.map_eq_none_iff,
        Attempt.find?_fst_eq_none] at missing
      rw [Option.eq_none_iff_forall_ne_some]
      intro reply replied
      exact missing (List.mem_map.mpr
        ⟨(i, reply), mem_begun_finished.mpr ⟨_, List.getElem?_eq_getElem bound, replied⟩, rfl⟩)

theorem mem_begun_finished_of_channels (channels : ∀ b ∈ s.backends, b.IsChannel) {call : Nat}
    {params : Json} {i : Nat} {reply : Reply} :
    (i, reply) ∈ (s.begun call params).finished ↔
      ∃ b, s.backends[i]? = some b ∧ b.accepts = false ∧ reply = .error b.closedError := by
  rw [mem_begun_finished]
  refine exists_congr fun b => and_congr_right fun here => ?_
  rw [((channels b (List.mem_of_getElem? here)).request_eq ..).1]
  cases b.accepts <;> simp [eq_comm]

theorem begun_got_ne_ok (channels : ∀ b ∈ s.backends, b.IsChannel) (call : Nat) (params : Json)
    (i : Nat) (v : Json) : (s.begun call params).got i ≠ some (.ok v) := by
  intro known
  have unjoined : (s.begun call params).results[i]?.join = none := by
    simp only [begun, openAttempt, List.getElem?_map]
    cases (List.range s.backends.length)[i]? <;> rfl
  simp only [Attempt.got, Attempt.replyIn, unjoined, Option.map_eq_some_iff] at known
  obtain ⟨⟨j, reply⟩, found, rfl⟩ := known
  obtain ⟨b, -, -, error⟩ :=
    (mem_begun_finished_of_channels channels).mp (List.mem_of_find?_eq_some found)
  cases error

theorem mem_begun_running_of_channels (channels : ∀ b ∈ s.backends, b.IsChannel) {call : Nat}
    {params : Json} {i : Nat} :
    i ∈ (s.begun call params).running ↔ ∃ b, s.backends[i]? = some b ∧ b.accepts = true := by
  rw [mem_begun_running]
  refine exists_congr fun b => and_congr_right fun here => ?_
  rw [((channels b (List.mem_of_getElem? here)).request_eq ..).1]
  cases b.accepts <;> simp

theorem begun_stage_of_closed (channels : ∀ b ∈ s.backends, b.IsChannel)
    (closed : ∃ b ∈ s.backends, b.accepts = false) (call : Nat) (params : Json) :
    ∃ i b, s.backends[i]? = some b ∧ b.accepts = false ∧
      (s.begun call params).stage = .failed i (.error b.closedError) := by
  obtain ⟨b, member, shut⟩ := closed
  obtain ⟨k, bound, rfl⟩ := List.getElem_of_mem member
  have some : (k, Reply.error s.backends[k].closedError) ∈ (s.begun call params).finished :=
    (mem_begun_finished_of_channels channels).mpr ⟨_, List.getElem?_eq_getElem bound, shut, rfl⟩
  cases h : (s.begun call params).finished with
  | nil => rw [h] at some; cases some
  | cons first rest =>
    obtain ⟨i, reply⟩ := first
    have member : (i, reply) ∈ (s.begun call params).finished := h ▸ List.mem_cons_self
    obtain ⟨b, here, shut, rfl⟩ := (mem_begun_finished_of_channels channels).mp member
    exact ⟨i, b, here, shut, by simp only [Attempt.stage, h, Attempt.join]⟩

theorem begun_stage_of_open (channels : ∀ b ∈ s.backends, b.IsChannel)
    (allOpen : ∀ b ∈ s.backends, b.accepts = true) (call : Nat) (params : Json) :
    (s.begun call params).finished = [] ∧
      (s.begun call params).running = List.range s.backends.length ∧
      (s.begun call params).stage =
        if s.backends = [] then .complete [] else .pending (s.begun call params).results := by
  have none : (s.begun call params).finished = [] := by
    refine List.eq_nil_iff_forall_not_mem.mpr fun ⟨i, reply⟩ member => ?_
    obtain ⟨b, here, shut, -⟩ := (mem_begun_finished_of_channels channels).mp member
    rw [allOpen b (List.mem_of_getElem? here)] at shut
    cases shut
  have running : (s.begun call params).running = List.range s.backends.length := by
    have same : (fanOut call params 0 s.backends).2.1 = [] := none
    simp [begun, openAttempt, same]
  refine ⟨none, running, ?_⟩
  rw [Attempt.stage, none, Attempt.join, running]
  cases h : s.backends with
  | nil => simp [begun, openAttempt, h]
  | cons b rest => simp [List.isEmpty_iff, List.range_eq_nil]

end CallSide

end Switchboard.Mux
