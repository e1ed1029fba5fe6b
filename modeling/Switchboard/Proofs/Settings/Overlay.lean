import Mathlib
import Switchboard.Proofs.Toml.Writing
import Switchboard.Settings.FromToml

namespace Switchboard

open Toml (Value Entries Table Statement Builder Spelling Writes Along)

namespace Toml.Value

/-- All numbers in the entries are in range, at every depth. -/
def InRange (entries : Entries) : Prop := overflowOfEntries? entries = none

def IsScalar : Value → Prop
  | .str _ | .int _ | .float _ | .bool _ => True
  | _ => False

theorem inRange_cons {key : String} {place : Nat} {v : Value} {rest : Entries} :
    InRange ((key, place, v) :: rest) ↔ v.overflow? place = none ∧ InRange rest := by
  rw [InRange, overflowOfEntries?, Option.or_eq_none_iff]
  rfl

theorem InRange.lookup {entries : Entries} (inRange : InRange entries) {key : String} {place : Nat}
    {v : Value} (there : entries.lookup key = some (place, v)) : v.overflow? place = none := by
  induction entries with
  | nil => cases there
  | cons e rest ih =>
    obtain ⟨k, p, w⟩ := e
    obtain ⟨here, later⟩ := inRange_cons.mp inRange
    rw [Assoc.lookup_cons_if] at there
    split at there
    · cases there
      exact here
    · exact ih later there

theorem ignore_of_inRange {place : Nat} {v : Value} (inRange : v.overflow? place = none) :
    v.ignore place = .ok () := by
  rw [ignore, inRange]

theorem found_of_inRange {place : Nat} {v : Value} (inRange : v.overflow? place = none) :
    ∃ found, v.found = .ok found := by
  match v with
  | .str s => exact ⟨_, rfl⟩
  | .int n =>
    by_cases wide : intOverflows n
    · simp [overflow?, wide] at inRange
    · exact ⟨.int n, by simp [found, wide]⟩
  | .float (some x) => exact ⟨_, rfl⟩
  | .float none => cases inRange
  | .bool b => exact ⟨_, rfl⟩
  | .datetime | .table .. => exact ⟨_, rfl⟩
  | .arr _ | .tables _ => exact ⟨_, rfl⟩

end Toml.Value

namespace ServerInfo

/-- A setting from what the document gives for it, by default if it gives nothing. -/
def setting (default : String) : Option (Nat × Value) → Except Misplaced String
  | none => .ok default
  | some (place, v) => v.string place

def Sets (default : String) (given : Option (Nat × Value)) (value : String) : Prop :=
  given = none ∧ value = default ∨ ∃ place, given = some (place, .str value)

def Fits (given : Option (Nat × Value)) : Prop :=
  ∀ place v, given = some (place, v) → ∃ s, v = .str s

theorem setting_eq_ok_iff {default value : String} {given : Option (Nat × Value)} :
    setting default given = .ok value ↔ Sets default given value := by
  match given with
  | none => simp [setting, Sets, eq_comm]
  | some (place, .str s) => simp [setting, Sets, Value.string]
  | some (place, .int _) | some (place, .float _) | some (place, .bool _) | some (place, .datetime)
  | some (place, .arr _) | some (place, .tables _) | some (place, .table ..) =>
    simp [setting, Sets, Value.string]

theorem fits_iff {given : Option (Nat × Value)} (default : String) :
    Fits given ↔ ∃ value, Sets default given value := by
  match given with
  | none => simp [Fits, Sets]
  | some (place, v) => simp [Fits, Sets, eq_comm]

theorem setting_of_wrong {default : String} {place : Nat} {v : Value} (wrong : ∀ s, v ≠ .str s) :
    setting default (some (place, v)) = .error ⟨v.mismatch .string, place⟩ := by
  cases v with
  | str s => exact absurd rfl (wrong s)
  | _ => rfl

theorem ofEntries_eq {entries : Entries} (sorted : Assoc.Sorted entries)
    (inRange : Value.InRange entries) (info : ServerInfo) :
    ofEntries info entries = do
      let name ← setting info.name (entries.lookup "name")
      let version ← setting info.version (entries.lookup "version")
      return ⟨name, version⟩ := by
  induction entries generalizing info with
  | nil => rfl
  | cons e rest ih =>
    obtain ⟨key, place, v⟩ := e
    obtain ⟨here, tailRange⟩ := Value.inRange_cons.mp inRange
    have tailSorted : Assoc.Sorted rest := List.Pairwise.of_cons sorted
    rw [Assoc.lookup_cons_if, Assoc.lookup_cons_if]
    by_cases name : key = "name"
    · subst name
      rw [if_pos rfl, if_neg (by decide), setting, ofEntries]
      cases v.string place with
      | error problem => rfl
      | ok s =>
        refine (ih tailSorted tailRange ⟨s, info.version⟩).trans ?_
        rw [sorted.lookup_tail (String.le_refl _)]
        rfl
    · by_cases version : key = "version"
      · subst version
        rw [if_neg (by decide), if_pos rfl, sorted.lookup_tail (by decide), setting, setting]
        rw [ofEntries]
        cases v.string place with
        | error problem => rfl
        | ok s =>
          refine (ih tailSorted tailRange ⟨info.name, s⟩).trans ?_
          rw [sorted.lookup_tail (by decide), sorted.lookup_tail (String.le_refl _)]
          rfl
      · rw [if_neg (Ne.symm name), if_neg (Ne.symm version), ofEntries]
        · simp only [Value.ignore_of_inRange here]
          exact ih tailSorted tailRange info
        · exact name
        · exact version

theorem ofEntries_eq_ok_iff {entries : Entries} (sorted : Assoc.Sorted entries)
    (inRange : Value.InRange entries) {info : ServerInfo} :
    ofEntries {} entries = .ok info ↔
      Sets "lspx" (entries.lookup "name") info.name ∧
        Sets "0.1.0" (entries.lookup "version") info.version := by
  obtain ⟨name, version⟩ := info
  rw [ofEntries_eq sorted inRange, ← setting_eq_ok_iff, ← setting_eq_ok_iff]
  change (setting "lspx" _ >>= fun name =>
    setting "0.1.0" _ >>= fun version => pure (ServerInfo.mk name version)) = _ ↔ _
  cases setting "lspx" (entries.lookup "name") with
  | error problem => simp [bind, Except.bind]
  | ok first =>
    cases setting "0.1.0" (entries.lookup "version") with
    | error problem => simp [bind, Except.bind]
    | ok second => simp [bind, Except.bind, pure, Except.pure]

end ServerInfo

namespace Settings

open ServerInfo (Sets Fits setting setting_eq_ok_iff setting_of_wrong fits_iff)

theorem ofEntries_eq {entries : Entries} (sorted : Assoc.Sorted entries)
    (inRange : Value.InRange entries) (settings : Settings) :
    ofEntries settings entries = match entries.lookup "server_info" with
      | none => .ok settings
      | some (place, v) => (ServerInfo.ofToml place v).map Settings.mk := by
  induction entries generalizing settings with
  | nil => rfl
  | cons e rest ih =>
    obtain ⟨key, place, v⟩ := e
    obtain ⟨here, tailRange⟩ := Value.inRange_cons.mp inRange
    have tailSorted : Assoc.Sorted rest := List.Pairwise.of_cons sorted
    rw [Assoc.lookup_cons_if]
    by_cases own : key = "server_info"
    · subst own
      rw [if_pos rfl, ofEntries]
      change (ServerInfo.ofToml place v >>= fun info => ofEntries ⟨info⟩ rest) =
        (ServerInfo.ofToml place v).map Settings.mk
      cases ServerInfo.ofToml place v with
      | error problem => rfl
      | ok info =>
        refine (ih tailSorted tailRange ⟨info⟩).trans ?_
        rw [sorted.lookup_tail (String.le_refl _)]
        rfl
    · rw [if_neg (Ne.symm own), ofEntries]
      · simp only [Value.ignore_of_inRange here]
        exact ih tailSorted tailRange settings
      · exact own

theorem ofToml_of_ofEntries {entries : Entries} {settings s : Settings}
    (read : ofEntries settings entries = .ok s) {place : Nat} {v : Value}
    (there : entries.lookup "server_info" = some (place, v)) :
    ∃ info, ServerInfo.ofToml place v = .ok info := by
  induction entries generalizing settings with
  | nil => cases there
  | cons e rest ih =>
    obtain ⟨key, p, w⟩ := e
    rw [Assoc.lookup_cons_if] at there
    by_cases own : key = "server_info"
    · subst own
      cases there
      rw [ofEntries] at read
      cases found : ServerInfo.ofToml place v with
      | ok info => exact ⟨info, rfl⟩
      | error problem =>
        rw [found] at read
        cases read
    · rw [if_neg (Ne.symm own)] at there
      rw [ofEntries] at read
      · cases ignored : w.ignore p with
        | ok _ =>
          rw [ignored] at read
          exact ih read there
        | error problem =>
          rw [ignored] at read
          cases read
      · exact own

/-- The document's table `server_info`, empty if there is none; `none` if it is no table. -/
def serverInfo? (entries : Entries) : Option Entries :=
  match entries.lookup "server_info" with
  | none => some []
  | some (_, .table _ info) => some info
  | some _ => none

def told (text : String) (problem : Misplaced) : ParseError :=
  let (line, column) := position (text.toList.take (text.length - problem.place))
  .shape problem.what line column

theorem ofToml_of_ofText {text : String} {entries : Entries}
    (parsed : Toml.ofText text = some entries) :
    ofToml text = (ofEntries {} entries).mapError (told text) := by
  simp only [ofToml, parsed]
  cases ofEntries {} entries <;> rfl

theorem ofEntries_of_serverInfo? {entries info : Entries} (inOrder : Toml.InOrder entries)
    (inRange : Value.InRange entries) (known : serverInfo? entries = some info) :
    ofEntries {} entries = (ServerInfo.ofEntries {} info).map Settings.mk ∧
      Assoc.Sorted info ∧ Value.InRange info := by
  rw [ofEntries_eq inOrder.sorted inRange]
  rw [serverInfo?] at known
  split at known
  · rename_i absent
    cases known
    rw [absent]
    exact ⟨rfl, List.Pairwise.nil, rfl⟩
  · rename_i place standing entries' there
    cases known
    rw [there]
    exact ⟨rfl, (Value.ordered_table.mp (inOrder.lookup there)).sorted, inRange.lookup there⟩
  · cases known

/-- How a text with these entries of `server_info` is read as settings. The name is looked at before
    the version. -/
structure Overlays (text : String) (info : Entries) : Prop where
  succeeds : (∃ s, ofToml text = .ok s) ↔ Fits (info.lookup "name") ∧ Fits (info.lookup "version")
  settings : ∀ s, ofToml text = .ok s ↔
    Sets "lspx" (info.lookup "name") s.serverInfo.name ∧
      Sets "0.1.0" (info.lookup "version") s.serverInfo.version
  wrongName : ∀ place v, info.lookup "name" = some (place, v) → (∀ s, v ≠ .str s) →
    ∃ found, v.found = .ok found ∧ ofToml text = .error (told text ⟨.type found .string, place⟩)
  wrongVersion : ∀ place v, Fits (info.lookup "name") →
    info.lookup "version" = some (place, v) → (∀ s, v ≠ .str s) →
    ∃ found, v.found = .ok found ∧ ofToml text = .error (told text ⟨.type found .string, place⟩)

theorem overlays {text : String} {entries info : Entries}
    (parsed : Toml.ofText text = some entries) (known : serverInfo? entries = some info)
    (inRange : Value.InRange entries) : Overlays text info := by
  obtain ⟨read, sorted, within⟩ :=
    ofEntries_of_serverInfo? (Toml.inOrder_ofText parsed) inRange known
  have whole := ofToml_of_ofText parsed
  rw [read] at whole
  have settings (s : Settings) : ofToml text = .ok s ↔
      Sets "lspx" (info.lookup "name") s.serverInfo.name ∧
        Sets "0.1.0" (info.lookup "version") s.serverInfo.version := by
    rw [whole, ← ServerInfo.ofEntries_eq_ok_iff sorted within]
    obtain ⟨identity⟩ := s
    cases ServerInfo.ofEntries {} info <;> simp [Except.map, Except.mapError]
  rw [ServerInfo.ofEntries_eq sorted within] at whole
  -- a value in range has a kind, which the error names
  have mismatch {place : Nat} {v : Value} {key : String}
      (there : info.lookup key = some (place, v)) :
      ∃ found, v.found = .ok found ∧ v.mismatch .string = .type found .string := by
    obtain ⟨found, ok⟩ := Value.found_of_inRange (within.lookup there)
    exact ⟨found, ok, by rw [Value.mismatch, ok]⟩
  refine ⟨?_, settings, ?_, ?_⟩
  · rw [fits_iff "lspx", fits_iff "0.1.0"]
    constructor
    · rintro ⟨s, ok⟩
      obtain ⟨name, version⟩ := (settings s).mp ok
      exact ⟨⟨_, name⟩, ⟨_, version⟩⟩
    · rintro ⟨⟨name, first⟩, ⟨version, second⟩⟩
      exact ⟨⟨⟨name, version⟩⟩, (settings _).mpr ⟨first, second⟩⟩
  · intro place v there wrong
    obtain ⟨found, ok, same⟩ := mismatch there
    refine ⟨found, ok, ?_⟩
    rw [whole, there, setting_of_wrong wrong, same]
    rfl
  · intro place v fits there wrong
    obtain ⟨found, ok, same⟩ := mismatch there
    obtain ⟨name, first⟩ := (fits_iff "lspx").mp fits
    refine ⟨found, ok, ?_⟩
    rw [whole, setting_eq_ok_iff.mpr first, there, setting_of_wrong wrong, same]
    rfl

/-- What a document says of a setting of `server_info`, in any spelling. -/
def Mentions (statements : List Statement) (key : String) : Option Value → Prop :=
  Writes [] statements ["server_info", key]

theorem mentions_iff {statements : List Statement} {entries info : Entries}
    (built : Builder.entriesOf statements = some entries)
    (known : serverInfo? entries = some info) (key : String) (m : Option Value) :
    Mentions statements key m ↔ ∃ e, info.lookup key = some e ∧ m = e.2.leaf? := by
  rw [Mentions, ← Builder.content_entriesOf built, Value.content_table_cons]
  rw [serverInfo?] at known
  split at known
  · rename_i absent
    cases known
    simp [absent]
  · rename_i place standing entries' there
    cases known
    simp only [there, Option.some.injEq, exists_eq_left', Value.content_table_cons]
    rfl
  · cases known

theorem sets_iff {statements : List Statement} {given : Option (Nat × Value)} {key : String}
    (mentions : ∀ m, Mentions statements key m ↔ ∃ e, given = some e ∧ m = e.2.leaf?)
    (default value : String) : Sets default given value ↔
      (∀ m, ¬ Mentions statements key m) ∧ value = default ∨
        Mentions statements key (some (.str value)) := by
  match given with
  | none => simp [Sets, mentions]
  | some (place, v) =>
    cases v <;> simp [Sets, mentions, Value.leaf?, eq_comm]

theorem ofToml_of_scalar {text : String} {entries : Entries}
    (parsed : Toml.ofText text = some entries) {place : Nat} {v : Value}
    (there : entries.lookup "server_info" = some (place, v)) (scalar : v.IsScalar) :
    ∃ what line column, ofToml text = .error (.shape what line column) := by
  have whole := ofToml_of_ofText parsed
  cases read : ofEntries {} entries with
  | ok s =>
    obtain ⟨info, found⟩ := ofToml_of_ofEntries read there
    cases v with
    | str _ | int _ | float _ | bool _ => cases found
    | _ => cases scalar
  | error problem =>
    rw [read] at whole
    exact ⟨_, _, _, whole⟩

/-- How a text with these statements, which make these entries, is read as settings: it changes the
    defaults where it says so, whatever its spelling and whatever else it says. -/
structure OverlaysDefaults (text : String) (statements : List Statement) (entries : Entries) :
    Prop where
  overlays : ∀ info, serverInfo? entries = some info → Value.InRange entries → Overlays text info
  mentions : ∀ info, serverInfo? entries = some info → ∀ key m,
    Mentions statements key m ↔ ∃ e, info.lookup key = some e ∧ m = e.2.leaf?
  spellings : ∀ given table, Table.ofAssignments given = some table →
    ∀ (spelling : Spelling) place keyPlace key m,
      Mentions (spelling.statements place ⟨"server_info", keyPlace⟩ given table) key m ↔
        ∃ a ∈ given, Along a.value.content a.way [key] m
  alike : ∀ info, serverInfo? entries = some info → Value.InRange entries →
    ∀ text' statements' entries' info', Toml.statementsOf text' = some statements' →
      Builder.entriesOf statements' = some entries' → serverInfo? entries' = some info' →
      Value.InRange entries' →
      (∀ key, key = "name" ∨ key = "version" →
        ∀ m, Mentions statements key m ↔ Mentions statements' key m) →
      ∀ s, ofToml text = .ok s ↔ ofToml text' = .ok s
  scalar : ∀ place v, entries.lookup "server_info" = some (place, v) → v.IsScalar →
    ∃ what line column, ofToml text = .error (.shape what line column)

theorem overlay_on_defaults {text : String} {statements : List Statement} {entries : Entries}
    (read : Toml.statementsOf text = some statements)
    (built : Builder.entriesOf statements = some entries) :
    OverlaysDefaults text statements entries := by
  have parsed : Toml.ofText text = some entries :=
    (Toml.ofText_of_statementsOf read).trans built
  refine ⟨?_, ?_, ?_, ?_, ?_⟩
  · intro info known inRange
    exact overlays parsed known inRange
  · intro info known
    exact mentions_iff built known
  · intro given table made spelling place keyPlace key m
    exact Toml.writes_spelling made spelling place ⟨"server_info", keyPlace⟩ key [] m
  · intro info known inRange text' statements' entries' info' read' built' known' inRange' same s
    have parsed' : Toml.ofText text' = some entries' :=
      (Toml.ofText_of_statementsOf read').trans built'
    rw [(overlays parsed known inRange).settings, (overlays parsed' known' inRange').settings]
    rw [sets_iff (mentions_iff built known _), sets_iff (mentions_iff built known _),
      sets_iff (mentions_iff built' known' _), sets_iff (mentions_iff built' known' _)]
    simp only [same _ (.inl rfl), same _ (.inr rfl)]
  · intro place v there scalar
    exact ofToml_of_scalar parsed there scalar

/-- A name under a dotted key, no version, and a table of no concern. -/
theorem overlay_on_defaults_dotted :
    let text := "server_info.name = \"mux\"\n[log]\nlevel = 3\n"
    let statements := [
      .assignment ⟨[⟨"server_info", 41⟩], ⟨"name", 29⟩, 22, .str "mux"⟩,
      .header false 16 [] ⟨"log", 15⟩, .assignment ⟨[], ⟨"level", 10⟩, 2, .int 3⟩]
    let entries := [
      ("log", 16, .table .explicit [("level", 2, .int 3)]),
      ("server_info", 41, .table .dotted [("name", 22, .str "mux")])]
    Toml.statementsOf text = some statements ∧ Builder.entriesOf statements = some entries ∧
      OverlaysDefaults text statements entries ∧ ofToml text = .ok ⟨⟨"mux", "0.1.0"⟩⟩ := by
  intro text statements entries
  have read : Toml.statementsOf text = some statements := by cbv
  have built : Builder.entriesOf statements = some entries := by cbv
  have overlay := overlay_on_defaults read built
  refine ⟨read, built, overlay, ?_⟩
  refine ((overlay.overlays [("name", 22, .str "mux")] (by rfl) (by rfl)).settings _).mpr ?_
  exact ⟨.inr ⟨22, rfl⟩, .inl ⟨rfl, rfl⟩⟩

end Settings

end Switchboard
