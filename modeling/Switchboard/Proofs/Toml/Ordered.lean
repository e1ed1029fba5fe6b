import Switchboard.Proofs.Toml.Tables
import Switchboard.Toml.Document

namespace Switchboard.Toml

def Value.parts : Value → List Entries
  | .table _ entries => [entries]
  | .tables items => items.map Prod.snd
  | _ => []

inductive Value.Ordered : Value → Prop
  | intro {v : Value} : (∀ entries ∈ v.parts, Assoc.Sorted entries) →
    (∀ entries ∈ v.parts, ∀ e ∈ entries, Value.Ordered e.2.2) → Value.Ordered v

/-- Entries in order, and so are those of the tables in them. -/
structure InOrder (entries : Entries) : Prop where
  sorted : Assoc.Sorted entries
  values : ∀ e ∈ entries, e.2.2.Ordered

theorem Value.ordered_iff {v : Value} : v.Ordered ↔ ∀ entries ∈ v.parts, InOrder entries := by
  constructor
  · rintro ⟨sorted, values⟩ entries member
    exact ⟨sorted entries member, values entries member⟩
  · intro parts
    exact ⟨fun entries member => (parts entries member).sorted,
      fun entries member => (parts entries member).values⟩

theorem Value.ordered_table {standing : Standing} {entries : Entries} :
    (Value.table standing entries).Ordered ↔ InOrder entries := by
  simp [ordered_iff, parts]

theorem Value.ordered_of_parts_nil {v : Value} (none : v.parts = []) : v.Ordered := by
  simp [ordered_iff, none]

namespace InOrder

variable {entries : Entries}

theorem nil : InOrder [] := ⟨List.Pairwise.nil, nofun⟩

theorem put (inOrder : InOrder entries) (key : String) (place : Nat) {v : Value}
    (ordered : v.Ordered) : InOrder (Assoc.put key (place, v) entries) := by
  refine ⟨inOrder.sorted.put _ _, ?_⟩
  intro e member
  rcases Assoc.mem_put member with rfl | old
  · exact ordered
  · exact inOrder.values e old

theorem lookup (inOrder : InOrder entries) {key : String} {place : Nat} {v : Value}
    (there : entries.lookup key = some (place, v)) : v.Ordered := by
  obtain ⟨before, after, rfl, -⟩ := List.lookup_eq_some_iff.mp there
  exact inOrder.values (key, place, v) (by simp)

end InOrder

namespace Table

variable {t t' : Table}

theorem inOrder_put (inOrder : InOrder t.entries) (key : Key) (place : Nat) {v : Value}
    (ordered : v.Ordered) : InOrder (t.put key place v).entries :=
  inOrder.put key.name place ordered

theorem inOrder_of_tables {before : List (Nat × Entries)} {head : Nat} {entries : Entries}
    (ordered : (Value.tables (before ++ [(head, entries)])).Ordered) : InOrder entries :=
  Value.ordered_iff.mp ordered entries (by simp [Value.parts])

theorem ordered_tables_snoc {before : List (Nat × Entries)} {head : Nat} {entries : Entries}
    (ordered : ∀ item ∈ before, InOrder item.2) (inOrder : InOrder entries) :
    (Value.tables (before ++ [(head, entries)])).Ordered := by
  apply Value.ordered_iff.mpr
  intro part member
  obtain ⟨item, found, rfl⟩ := List.mem_map.mp member
  rcases List.mem_append.mp found with old | new
  · exact ordered item old
  · rw [List.mem_singleton.mp new]
    exact inOrder

theorem ordered_items {items : List (Nat × Entries)} (ordered : (Value.tables items).Ordered) :
    ∀ item ∈ items, InOrder item.2 := fun item member =>
  Value.ordered_iff.mp ordered item.2 (List.mem_map.mpr ⟨item, member, rfl⟩)

theorem inOrder_modify {dotted : Bool} {f : Table → Option Table}
    (closed : ∀ {t t' : Table}, InOrder t.entries → f t = some t' → InOrder t'.entries)
    {path : List Key} (inOrder : InOrder t.entries) (done : modify dotted f path t = some t') :
    InOrder t'.entries := by
  induction path generalizing t t' with
  | nil => exact closed inOrder done
  | cons key path ih =>
    rcases modify_cons_eq_some done with
      ⟨standing, child, -, inner, rfl⟩ | ⟨place, standing, entries, child, there, inner, rfl⟩ |
      ⟨place, before, head, entries, child, there, inner, rfl⟩
    · exact inOrder_put inOrder key _ (Value.ordered_table.mpr (ih InOrder.nil inner))
    · have here := Value.ordered_table.mp (inOrder.lookup there)
      exact inOrder_put inOrder key _ (Value.ordered_table.mpr (ih here inner))
    · -- The last table of an array is the one that changes.
      have here := inOrder.lookup there
      have items : ∀ item ∈ before, InOrder item.2 := fun item member =>
        ordered_items here item (List.mem_append_left _ member)
      have last := ih (t := ⟨.explicit, entries⟩) (inOrder_of_tables here) inner
      exact inOrder_put inOrder key _ (ordered_tables_snoc items last)

theorem inOrder_assign {a : Assignment} (ordered : a.value.Ordered) (inOrder : InOrder t.entries)
    (done : t.assign a = some t') : InOrder t'.entries := by
  refine inOrder_modify (fun before added => ?_) inOrder done
  obtain ⟨-, rfl⟩ := add_eq_some added
  exact inOrder_put before a.key a.place ordered

theorem inOrder_ofAssignments {assignments : List Assignment}
    (ordered : ∀ a ∈ assignments, a.value.Ordered) (done : ofAssignments assignments = some t) :
    InOrder t.entries :=
  foldlM_keeps (fun a member _ _ inOrder => inOrder_assign (ordered a member) inOrder)
    (show InOrder root.entries from InOrder.nil) done

theorem inOrder_openTable {place : Nat} {key : Key} (inOrder : InOrder t.entries)
    (done : t.openTable place key = some t') : InOrder t'.entries := by
  obtain ⟨entries, rfl, ⟨-, rfl⟩ | ⟨first, there⟩⟩ := openTable_eq_some done
  · exact inOrder_put inOrder key place (Value.ordered_table.mpr InOrder.nil)
  · have here := Value.ordered_table.mp (inOrder.lookup there)
    exact inOrder_put inOrder key place (Value.ordered_table.mpr here)

theorem inOrder_openItem {place : Nat} {key : Key} (inOrder : InOrder t.entries)
    (done : t.openItem place key = some t') : InOrder t'.entries := by
  obtain ⟨first, before, rfl, ⟨-, rfl⟩ | there⟩ := openItem_eq_some done
  · exact inOrder_put inOrder key first (ordered_tables_snoc nofun InOrder.nil)
  · have here := ordered_items (inOrder.lookup there)
    exact inOrder_put inOrder key first (ordered_tables_snoc here InOrder.nil)

end Table

def Statement.Ordered : Statement → Prop
  | .header .. => True
  | .assignment a => a.value.Ordered

namespace Builder

variable {b b' : Builder}

theorem inOrder_add {statement : Statement} (ordered : statement.Ordered)
    (inOrder : InOrder b.root.entries) (done : b.add statement = some b') :
    InOrder b'.root.entries := by
  cases statement with
  | header isItem place path key =>
    refine Table.inOrder_modify (fun before opened => ?_) inOrder (add_header_eq_some done).1
    cases isItem
    · exact Table.inOrder_openTable before opened
    · exact Table.inOrder_openItem before opened
  | assignment a =>
    have assigned := (add_assignment_eq_some done).1
    exact Table.inOrder_modify (Table.inOrder_assign ordered) inOrder assigned

theorem inOrder_entriesOf {statements : List Statement} {entries : Entries}
    (ordered : ∀ statement ∈ statements, statement.Ordered)
    (done : entriesOf statements = some entries) : InOrder entries := by
  obtain ⟨b, run, rfl⟩ := Option.map_eq_some_iff.mp done
  exact foldlM_keeps (fun s member _ _ inOrder => inOrder_add (ordered s member) inOrder)
    (show InOrder (⟨.root, []⟩ : Builder).root.entries from InOrder.nil) run

end Builder

namespace Scalar

theorem parts_number? {negative : Bool} {s : List Char} {v : Value}
    (number : number? negative s = some v) : v.parts = [] := by
  unfold number? at number
  obtain ⟨n, -, read⟩ := Option.bind_eq_some_iff.mp number
  split at read
  · cases read
    rfl
  · obtain ⟨⟨fraction, count, e⟩, -, read⟩ := Option.bind_eq_some_iff.mp read
    cases read
    rfl

theorem parts_ofWord {s : List Char} {v : Value} (word : ofWord s = some v) : v.parts = [] := by
  unfold ofWord at word
  split at word
  all_goals first
    | (cases word; rfl)
    | exact parts_number? word
    | (obtain ⟨d, -, rfl⟩ := Option.map_eq_some_iff.mp word; rfl)
    | skip
  split at word
  · cases word
    rfl
  · exact parts_number? word

end Scalar

/-- With so much fuel, values and assignments are parsed to what is in order. -/
structure ParsesOrdered (fuel : Nat) : Prop where
  value : ∀ {depth s v rest}, value? fuel depth s = some (v, rest) → v.Ordered
  assignments : ∀ {depth s as rest}, assignments? fuel depth s = some (as, rest) →
    ∀ a ∈ as, a.value.Ordered
  assignment : ∀ {depth s a rest}, assignment? fuel depth s = some (a, rest) → a.value.Ordered

namespace ParsesOrdered

variable {fuel depth : Nat} {s rest : List Char}

theorem zero : ParsesOrdered 0 where
  value read := by simp [value?] at read
  assignments read := by simp [assignments?] at read
  assignment read := by simp [assignment?] at read

theorem value_succ (below : ParsesOrdered fuel) {v : Value}
    (read : value? (fuel + 1) depth s = some (v, rest)) : v.Ordered := by
  unfold value? at read
  split at read
  · obtain ⟨r, -, same⟩ := Option.map_eq_some_iff.mp read
    cases same
    exact Value.ordered_of_parts_nil rfl
  · obtain ⟨r, -, same⟩ := Option.map_eq_some_iff.mp read
    cases same
    exact Value.ordered_of_parts_nil rfl
  · split at read
    · obtain ⟨r, -, same⟩ := Option.map_eq_some_iff.mp read
      cases same
      exact Value.ordered_of_parts_nil rfl
    · cases read
  · split at read
    · obtain ⟨⟨assignments, after⟩, parsed, read⟩ := Option.bind_eq_some_iff.mp read
      obtain ⟨table, made, same⟩ := Option.bind_eq_some_iff.mp read
      cases same
      exact Value.ordered_table.mpr (Table.inOrder_ofAssignments (below.assignments parsed) made)
    · cases read
  · obtain ⟨w, known, same⟩ := Option.map_eq_some_iff.mp read
    cases same
    exact Value.ordered_of_parts_nil (Scalar.parts_ofWord known)

theorem assignment_succ (below : ParsesOrdered fuel) {a : Assignment}
    (read : assignment? (fuel + 1) depth s = some (a, rest)) : a.value.Ordered := by
  rw [assignment?] at read
  obtain ⟨⟨⟨path, key⟩, text⟩, -, read⟩ := Option.bind_eq_some_iff.mp read
  dsimp only at read
  split at read
  · obtain ⟨⟨value, after⟩, parsed, same⟩ := Option.bind_eq_some_iff.mp read
    cases same
    exact below.value parsed
  · cases read

theorem assignments_succ (below : ParsesOrdered fuel) {as : List Assignment}
    (read : assignments? (fuel + 1) depth s = some (as, rest)) : ∀ a ∈ as, a.value.Ordered := by
  rw [assignments?] at read
  obtain ⟨text, -, read⟩ := Option.bind_eq_some_iff.mp read
  split at read
  · cases read
    exact List.forall_mem_nil _
  · obtain ⟨⟨a, after⟩, parsed, read⟩ := Option.bind_eq_some_iff.mp read
    have first := below.assignment parsed
    obtain ⟨text, -, read⟩ := Option.bind_eq_some_iff.mp read
    split at read
    · cases read
      exact List.forall_mem_singleton.mpr first
    · obtain ⟨⟨more, after⟩, others, same⟩ := Option.bind_eq_some_iff.mp read
      cases same
      exact List.forall_mem_cons.mpr ⟨first, below.assignments others⟩
    · cases read

end ParsesOrdered

theorem parsesOrdered (fuel : Nat) : ParsesOrdered fuel := by
  induction fuel with
  | zero => exact .zero
  | succ fuel ih => exact ⟨ih.value_succ, ih.assignments_succ, ih.assignment_succ⟩

theorem ordered_header? {fuel place : Nat} {s rest : List Char} {statement : Statement}
    (read : header? fuel place s = some (statement, rest)) : statement.Ordered := by
  unfold header? at read
  split at read
  all_goals
    obtain ⟨⟨⟨path, key⟩, text⟩, -, read⟩ := Option.bind_eq_some_iff.mp read
    dsimp only at read
    split at read
    · cases read
      trivial
    · cases read

theorem ordered_statements? {fuel : Nat} {s : List Char} {statements : List Statement}
    (read : statements? fuel s = some statements) :
    ∀ statement ∈ statements, statement.Ordered := by
  induction fuel generalizing s statements with
  | zero => simp [statements?] at read
  | succ fuel ih =>
    rw [statements?] at read
    obtain ⟨text, -, read⟩ := Option.bind_eq_some_iff.mp read
    split at read
    · cases read
      exact List.forall_mem_nil _
    · obtain ⟨⟨statement, after⟩, header, read⟩ := Option.bind_eq_some_iff.mp read
      obtain ⟨line, -, read⟩ := Option.bind_eq_some_iff.mp read
      obtain ⟨more, others, same⟩ := Option.bind_eq_some_iff.mp read
      cases same
      exact List.forall_mem_cons.mpr ⟨ordered_header? header, ih others⟩
    · obtain ⟨⟨a, after⟩, parsed, read⟩ := Option.bind_eq_some_iff.mp read
      obtain ⟨line, -, read⟩ := Option.bind_eq_some_iff.mp read
      obtain ⟨more, others, same⟩ := Option.bind_eq_some_iff.mp read
      cases same
      exact List.forall_mem_cons.mpr ⟨(parsesOrdered fuel).assignment parsed, ih others⟩

theorem inOrder_ofText {text : String} {entries : Entries} (parsed : ofText text = some entries) :
    InOrder entries := by
  obtain ⟨statements, read, built⟩ := Option.bind_eq_some_iff.mp parsed
  exact Builder.inOrder_entriesOf (ordered_statements? read) built
end Switchboard.Toml
