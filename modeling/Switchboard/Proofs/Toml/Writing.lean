import Switchboard.Proofs.Toml.Ordered

namespace Switchboard.Toml

/-- What is at the ends of paths: a value, or `none` for a table or an array of tables. -/
abbrev Content := List String → Option Value → Prop

namespace Value

def leaf? : Value → Option Value
  | .table .. | .tables _ => none
  | v => some v

/-- An array of tables holds what any of its tables holds. -/
def content : Value → Content
  | v, [], m => m = v.leaf?
  | v, key :: path, m =>
    ∃ entries ∈ v.parts, ∃ e, entries.lookup key = some e ∧ content e.2 path m

theorem content_standing (standing standing' : Standing) (entries : Entries) :
    (table standing entries).content = (table standing' entries).content := by
  funext path m
  cases path <;> rfl

theorem content_table_cons {standing : Standing} {entries : Entries} {key : String}
    {path : List String} {m : Option Value} :
    (table standing entries).content (key :: path) m ↔
      ∃ e, entries.lookup key = some e ∧ e.2.content path m := by
  simp [content, parts]

theorem content_tables_snoc (before : List (Nat × Entries)) (head : Nat) {entries : Entries}
    {path : List String} {m : Option Value} :
    (tables (before ++ [(head, entries)])).content path m ↔
      (tables before).content path m ∨ (table .explicit entries).content path m := by
  cases path with
  | nil => simp [content, leaf?]
  | cons key path => simp [content, parts, or_and_right, exists_or]

end Value

/-- Content at the end of a way, and tables on the way. -/
def Along (content : Content) : List String → Content
  | [], path, m => content path m
  | _ :: _, [], m => m = none
  | key :: way, k :: path, m => k = key ∧ Along content way path m

def Assignment.way (a : Assignment) : List String := a.path.map Key.name ++ [a.key.name]

def bare : Content := fun path m => path = [] ∧ m = none

theorem along_append (content : Content) (way way' : List String) :
    Along content (way ++ way') = Along (Along content way') way := by
  induction way with
  | nil => rfl
  | cons key way ih =>
    funext path m
    cases path with
    | nil => rfl
    | cons k path => rw [List.cons_append, Along, Along, ih]

theorem along_nil {content : Content} (root : content [] none) (way : List String) :
    Along content way [] none := by
  cases way with
  | nil => exact root
  | cons key way => rfl

theorem along_snoc_nil (content : Content) (way : List String) (key : String) :
    Along content (way ++ [key]) [] none := by
  cases way <;> rfl

namespace Table

/-- The table holds what it held before, and the given content. -/
def Gains (content : Content) (t t' : Table) : Prop :=
  ∀ path m, t'.toValue.content path m ↔ t.toValue.content path m ∨ content path m

variable {t t' : Table} {content : Content}

theorem gains_put {key : Key} {place : Nat} {v : Value}
    (gained : ∀ path m, v.content path m ↔
      (∃ e, t.find? key = some e ∧ e.2.content path m) ∨ content path m) :
    Gains (Along content [key.name]) t (t.put key place v) := by
  intro path m
  cases path with
  | nil => exact (or_self _).to_iff.symm
  | cons k path =>
    rw [toValue, toValue, Value.content_table_cons, Value.content_table_cons, put,
      Assoc.lookup_put]
    by_cases same : k = key.name
    · subst same
      simpa [Along, find?] using gained path m
    · simp [Along, same]

theorem Gains.of_nil {standing : Standing} (root : content [] none)
    (gains : Gains content ⟨standing, []⟩ t) (path : List String) (m : Option Value) :
    t.toValue.content path m ↔ content path m := by
  rw [gains path m]
  apply or_iff_right_of_imp
  intro held
  cases path with
  | nil =>
    cases held
    exact root
  | cons key path => simp [toValue, Value.content_table_cons] at held

theorem gains_modify {dotted : Bool} {f : Table → Option Table} (root : content [] none)
    (step : ∀ {t t' : Table}, f t = some t' → Gains content t t') {path : List Key}
    (done : modify dotted f path t = some t') : Gains (Along content (path.map Key.name)) t t' := by
  induction path generalizing t t' with
  | nil => exact step done
  | cons key path ih =>
    rw [List.map_cons, ← List.singleton_append, along_append]
    rcases modify_cons_eq_some done with
      ⟨standing, child, absent, inner, rfl⟩ |
      ⟨place, standing, entries, child, there, inner, rfl⟩ |
      ⟨place, before, head, entries, child, there, inner, rfl⟩
    · -- The table is made here, so it holds nothing that was not gained.
      apply gains_put
      intro inside m
      rw [(ih inner).of_nil (along_nil root _)]
      simp [absent]
    · apply gains_put
      intro inside m
      rw [ih inner inside m]
      simp [there, toValue]
    · -- Only the last table of the array gains; the others still count.
      apply gains_put
      intro inside m
      have last := ih inner inside m
      rw [toValue, toValue, Value.content_standing child.standing .explicit] at last
      rw [Value.content_tables_snoc, last, ← or_assoc, ← Value.content_tables_snoc before head]
      simp [there]

theorem gains_assign {a : Assignment} (done : t.assign a = some t') :
    Gains (Along a.value.content a.way) t t' := by
  rw [Assignment.way, along_append]
  refine gains_modify rfl (fun added => ?_) done
  obtain ⟨absent, rfl⟩ := add_eq_some added
  exact gains_put fun inside m => by simp [absent]

theorem gains_ofAssignments {given : List Assignment} (made : ofAssignments given = some t) :
    Gains (fun path m => ∃ a ∈ given, Along a.value.content a.way path m) root t := by
  suffices ∀ start : Table, given.foldlM assign start = some t →
      Gains (fun path m => ∃ a ∈ given, Along a.value.content a.way path m) start t from
    this root made
  clear made
  induction given with
  | nil =>
    intro start run
    cases run
    exact fun path m => (or_iff_left fun ⟨_, member, _⟩ => nomatch member).symm
  | cons a rest ih =>
    intro start run path m
    obtain ⟨next, first, more⟩ := Option.bind_eq_some_iff.mp run
    rw [ih next more path m, gains_assign first path m, or_assoc]
    simp

theorem gains_openTable {place : Nat} {key : Key} (done : t.openTable place key = some t') :
    Gains (Along bare [key.name]) t t' := by
  obtain ⟨entries, rfl, ⟨absent, rfl⟩ | ⟨first, there⟩⟩ := openTable_eq_some done
  · apply gains_put
    intro inside m
    cases inside <;> simp [absent, bare, Value.content, Value.leaf?, Value.parts]
  · apply gains_put
    intro inside m
    rw [Value.content_standing .explicit .implied]
    cases inside <;> simp [there, bare, Value.content, Value.leaf?]

theorem gains_openItem {place : Nat} {key : Key} (done : t.openItem place key = some t') :
    Gains (Along bare [key.name]) t t' := by
  obtain ⟨first, before, rfl, ⟨absent, rfl⟩ | there⟩ := openItem_eq_some done
  · apply gains_put
    intro inside m
    cases inside <;> simp [absent, bare, Value.content, Value.leaf?, Value.parts]
  · apply gains_put
    intro inside m
    rw [Value.content_tables_snoc]
    cases inside <;> simp [there, bare, Value.content, Value.leaf?, Value.parts]

end Table

/-- What statements write, when the table at `current` is the one that is open. -/
def Writes : List String → List Statement → Content
  | _, [], _, _ => False
  | _, .header _ _ way key :: rest, path, m =>
    let opened := way.map Key.name ++ [key.name]
    Along bare opened path m ∨ Writes opened rest path m
  | current, .assignment a :: rest, path, m =>
    Along a.value.content (current ++ a.way) path m ∨ Writes current rest path m

namespace Builder

theorem gains_run {statements : List Statement} {b b' : Builder}
    (run : statements.foldlM add b = some b') :
    Table.Gains (Writes (b.current.map Key.name) statements) b.root b'.root := by
  induction statements generalizing b with
  | nil =>
    cases run
    exact fun path m => (or_iff_left id).symm
  | cons statement rest ih =>
    obtain ⟨next, first, more⟩ := Option.bind_eq_some_iff.mp run
    have later := ih more
    intro path m
    rw [later path m]
    cases statement with
    | header isItem place way key =>
      obtain ⟨opened, current⟩ := add_header_eq_some first
      have step {t t' : Table} (done : enter isItem place key t = some t') :
          Table.Gains (Along bare [key.name]) t t' := by
        cases isItem
        · exact Table.gains_openTable done
        · exact Table.gains_openItem done
      have now := Table.gains_modify rfl step opened
      rw [now path m, current, List.map_append, ← along_append, or_assoc]
      rfl
    | assignment a =>
      obtain ⟨assigned, current⟩ := add_assignment_eq_some first
      have now := Table.gains_modify (along_snoc_nil _ _ _) (fun done => Table.gains_assign done)
        assigned
      rw [now path m, current, ← along_append, Writes, or_assoc, Assignment.way]

/-- A document holds what its statements write, and nothing else. -/
theorem content_entriesOf {statements : List Statement} {entries : Entries}
    (built : entriesOf statements = some entries) (key : String) (path : List String)
    (m : Option Value) :
    (Value.table .explicit entries).content (key :: path) m ↔
      Writes [] statements (key :: path) m := by
  obtain ⟨b, run, rfl⟩ := Option.map_eq_some_iff.mp built
  have gains := gains_run run (key :: path) m
  rw [Table.toValue, Value.content_standing _ .explicit] at gains
  rw [gains]
  simp [Table.toValue, Table.root, Value.content_table_cons]

end Builder

def statementsOf (text : String) : Option (List Statement) :=
  let s := dropMark text.toList
  statements? (3 * s.length + 3) s

theorem ofText_of_statementsOf {text : String} {statements : List Statement}
    (read : statementsOf text = some statements) :
    ofText text = Builder.entriesOf statements :=
  congrArg (Option.bind · Builder.entriesOf) read

theorem writes_assignments (current : List String) (given : List Assignment) (path : List String)
    (m : Option Value) :
    Writes current (given.map .assignment) path m ↔
      ∃ a ∈ given, Along a.value.content (current ++ a.way) path m := by
  induction given with
  | nil => simp [Writes]
  | cons a rest ih => simp [Writes, ih]

/-- The ways in which a table can be written. -/
inductive Spelling
  | header
  | dotted
  | braces

def Spelling.statements (place : Nat) (key : Key) (given : List Assignment) (table : Table) :
    Spelling → List Statement
  | .header => .header false place [] key :: given.map .assignment
  | .dotted => (given.map fun a => { a with path := key :: a.path }).map .assignment
  | .braces => [.assignment ⟨[], key, place, .table .inline table.entries⟩]

theorem writes_spelling {given : List Assignment} {table : Table}
    (made : Table.ofAssignments given = some table) (spelling : Spelling) (place : Nat) (key : Key)
    (k : String) (path : List String) (m : Option Value) :
    Writes [] (spelling.statements place key given table) (key.name :: k :: path) m ↔
      ∃ a ∈ given, Along a.value.content a.way (k :: path) m := by
  cases spelling with
  | header =>
    rw [Spelling.statements, Writes, writes_assignments]
    simp [Along, bare]
  | dotted =>
    have step (a : Assignment) :
        Along a.value.content (key.name :: a.way) (key.name :: k :: path) m ↔
          Along a.value.content a.way (k :: path) m := by
      simp [Along]
    rw [Spelling.statements, writes_assignments]
    constructor
    · rintro ⟨a', member, holds⟩
      obtain ⟨a, given, rfl⟩ := List.mem_map.mp member
      exact ⟨a, given, (step a).mp holds⟩
    · rintro ⟨a, given, holds⟩
      exact ⟨_, List.mem_map.mpr ⟨a, given, rfl⟩, (step a).mpr holds⟩
  | braces =>
    have gains := Table.gains_ofAssignments made (k :: path) m
    rw [Table.toValue, Value.content_standing _ .inline] at gains
    simp [Spelling.statements, Writes, Assignment.way, Along, gains, Table.toValue, Table.root,
      Value.content_table_cons]

end Switchboard.Toml
