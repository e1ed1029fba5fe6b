import Switchboard.Proofs.Mux.Rounds

namespace Switchboard.Mux.Session

/-- What the consumer has received from the stream of a kind, and what waits there for it, comes in
    a block for each round. The block has what each peer pushed in that round: all of it, in its
    order and unchanged, under the name of the peer's backend. -/
theorem merged_streams (backends : List Backend) (settings : Settings)
    (rounds : List (List Command)) (kind : StreamKind)
    (goesOn : ∀ commands ∈ rounds, ∀ c ∈ commands, c.tearsDown = false)
    (held : (((ofBackends backends settings).rounds rounds).stream kind).reader ≠ .dropped) :
    ∃ blocks : List (List (Nat × kind.Message)),
      List.Forall₂ (fun block pushed => ∀ i, ofLane i block = ofLane i pushed) blocks
        ((ofBackends backends settings).pushedBy kind rounds) ∧
      (∀ i, ofLane i blocks.flatten =
        ofLane i ((ofBackends backends settings).pushedBy kind rounds).flatten) ∧
      ((ofBackends backends settings).receivedBy kind rounds ++
          ((ofBackends backends settings).rounds rounds).buffered kind).map
          (fun m => (some m.1, m.2)) =
        blocks.flatten.map fun m =>
          (backends[m.1]?.map Backend.name, (codec kind).write m.2) := by
  obtain ⟨blocks, more, same, received, conserves⟩ :=
    conserves_rounds rfl goesOn held (conserves_ofBackends backends settings)
  refine ⟨blocks, same, conserves.ofLane_of_rested, ?_⟩
  have merged := congrArg (List.map fun m => (m.1, (codec kind).write m.2)) conserves.merged
  rw [names_rounds, List.nil_append, List.nil_append, List.map_map, List.map_map] at merged
  rw [received, buffered, ← List.map_append, List.map_map]
  refine merged.trans (List.map_congr_left fun m _ => ?_)
  exact congrArg (·, (codec kind).write m.2) List.getElem?_map

theorem merged_streams_of_closed_peer :
    let note (method : String) : Json := .obj [("method", .str method)]
    let rounds : List (List Command) := [
      [.stream .notifications (.push 1 [note "begin"]),
        .stream .notifications (.push 0 [note "only"]), .stream .notifications (.close 0)],
      [.stream .notifications .take, .stream .notifications (.read none)],
      [.stream .notifications (.push 1 [note "end"])]]
    let backends : List Backend := [.ofName "a", .ofName "a"]
    let start := ofBackends backends {}
    start.pushedBy .notifications rounds =
      [[(1, ⟨"begin", .null⟩), (0, ⟨"only", .null⟩)], [], [(1, ⟨"end", .null⟩)]] ∧
    ∃ blocks : List (List (Nat × Notification)),
      List.Forall₂ (fun block pushed => ∀ i, ofLane i block = ofLane i pushed) blocks
        (start.pushedBy .notifications rounds) ∧
      (∀ i, ofLane i blocks.flatten =
        ofLane i (start.pushedBy .notifications rounds).flatten) ∧
      (start.receivedBy .notifications rounds ++
          (start.rounds rounds).buffered .notifications).map (fun m => (some m.1, m.2)) =
        blocks.flatten.map fun m =>
          (backends[m.1]?.map Backend.name, (codec .notifications).write m.2) := by
  refine ⟨rfl, merged_streams _ {} _ .notifications ?_ ?_⟩
  · simp [Command.tearsDown]
  · decide

end Switchboard.Mux.Session
