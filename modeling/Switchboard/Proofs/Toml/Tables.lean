import Switchboard.Toml.Value

namespace Switchboard.Toml

theorem foldlM_keeps {σ α : Type} {step : σ → α → Option σ} {Good : σ → Prop} {items : List α}
    (keeps : ∀ item ∈ items, ∀ s s', Good s → step s item = some s' → Good s') {s s' : σ}
    (good : Good s) (run : items.foldlM step s = some s') : Good s' := by
  induction items generalizing s with
  | nil =>
    cases run
    exact good
  | cons item rest ih =>
    obtain ⟨next, first, more⟩ := Option.bind_eq_some_iff.mp run
    have kept := keeps item List.mem_cons_self s next good first
    exact ih (fun i member => keeps i (List.mem_cons_of_mem _ member)) kept more

namespace Table

variable {t t' : Table}

/-- A step into the table that a key leads to: it may be missing, a table, or the last table of an
    array of tables. -/
theorem modify_cons_eq_some {dotted : Bool} {f : Table → Option Table} {key : Key} {path : List Key}
    (done : modify dotted f (key :: path) t = some t') :
    (∃ standing child, t.find? key = none ∧
      modify dotted f path ⟨standing, []⟩ = some child ∧ t' = t.put key key.place child.toValue) ∨
    (∃ place standing entries child, t.find? key = some (place, .table standing entries) ∧
      modify dotted f path ⟨standing, entries⟩ = some child ∧
      t' = t.put key place child.toValue) ∨
    ∃ place before head entries child,
      t.find? key = some (place, .tables (before ++ [(head, entries)])) ∧
      modify dotted f path ⟨.explicit, entries⟩ = some child ∧
      t' = t.put key place (.tables (before ++ [(head, child.entries)])) := by
  rw [modify] at done
  split at done
  · rename_i absent
    obtain ⟨child, inner, outer⟩ := Option.bind_eq_some_iff.mp done
    cases outer
    exact .inl ⟨_, child, absent, inner, rfl⟩
  · rename_i place standing entries there
    split at done
    · cases done
    · obtain ⟨child, inner, outer⟩ := Option.bind_eq_some_iff.mp done
      cases outer
      exact .inr (.inl ⟨place, standing, entries, child, there, inner, rfl⟩)
  · rename_i place items there
    obtain ⟨⟨head, entries⟩, last, rest⟩ := Option.bind_eq_some_iff.mp done
    obtain ⟨child, inner, outer⟩ := Option.bind_eq_some_iff.mp rest
    cases outer
    obtain ⟨before, rfl⟩ := List.getLast?_eq_some_iff.mp last
    rw [List.dropLast_concat]
    exact .inr (.inr ⟨place, before, head, entries, child, there, inner, rfl⟩)
  · cases done

theorem add_eq_some {isDotted : Bool} {key : Key} {place : Nat} {value : Value}
    (done : t.add isDotted key place value = some t') :
    t.find? key = none ∧ t' = t.put key place value := by
  rw [add] at done
  split at done
  · cases done
  · split at done
    · cases done
    · rename_i absent
      cases done
      exact ⟨by simpa using absent, rfl⟩

theorem openTable_eq_some {place : Nat} {key : Key} (done : t.openTable place key = some t') :
    ∃ entries, t' = t.put key place (.table .explicit entries) ∧
      (t.find? key = none ∧ entries = [] ∨
        ∃ first, t.find? key = some (first, .table .implied entries)) := by
  rw [openTable] at done
  split at done
  · rename_i absent
    cases done
    exact ⟨[], rfl, .inl ⟨absent, rfl⟩⟩
  · rename_i first entries there
    cases done
    exact ⟨entries, rfl, .inr ⟨first, there⟩⟩
  · cases done

theorem openItem_eq_some {place : Nat} {key : Key} (done : t.openItem place key = some t') :
    ∃ first before, t' = t.put key first (.tables (before ++ [(place, [])])) ∧
      (t.find? key = none ∧ before = [] ∨ t.find? key = some (first, .tables before)) := by
  rw [openItem] at done
  split at done
  · rename_i absent
    cases done
    exact ⟨place, [], rfl, .inl ⟨absent, rfl⟩⟩
  · rename_i first items there
    cases done
    exact ⟨first, items, rfl, .inr there⟩
  · cases done

end Table

namespace Builder

variable {b b' : Builder}

def enter (isItem : Bool) (place : Nat) (key : Key) : Table → Option Table :=
  if isItem then Table.openItem place key else Table.openTable place key

theorem add_header_eq_some {isItem : Bool} {place : Nat} {path : List Key} {key : Key}
    (done : b.add (.header isItem place path key) = some b') :
    b.root.modify false (enter isItem place key) path = some b'.root ∧
      b'.current = path ++ [key] := by
  obtain ⟨root, inner, outer⟩ := Option.bind_eq_some_iff.mp done
  cases outer
  exact ⟨inner, rfl⟩

theorem add_assignment_eq_some {a : Assignment} (done : b.add (.assignment a) = some b') :
    b.root.modify false (·.assign a) b.current = some b'.root ∧ b'.current = b.current := by
  obtain ⟨root, inner, outer⟩ := Option.bind_eq_some_iff.mp done
  cases outer
  exact ⟨inner, rfl⟩

end Builder

end Switchboard.Toml
