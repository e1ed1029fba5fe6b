import Mathlib
import Switchboard.FileTree

namespace Switchboard

/-- A part of a path that is looked up in a directory. -/
def IsName (part : String) : Prop := part ≠ "" ∧ part ≠ "." ∧ part ≠ ".."

namespace FileTree

/-- Why an entry cannot be read as text: it is a directory, or its bytes are no text. -/
inductive Unreadable : FileTree → IoError → Prop
  | directory {entries : List (String × FileTree)} : Unreadable (.dir entries) .isADirectory
  | noText {bytes : ByteArray} (other : ∀ s : String, s.toUTF8 ≠ bytes) :
      Unreadable (.file bytes) .invalidData

variable {node : FileTree} {e : IoError}

theorem unreadable_or_text (node : FileTree) :
    (∃ e, node.Unreadable e) ∨ ∃ s : String, node = .file s.toUTF8 := by
  match node with
  | .dir entries => exact .inl ⟨_, .directory⟩
  | .file bytes =>
    by_cases valid : bytes.IsValidUTF8
    · exact .inr ⟨String.fromUTF8 bytes valid, rfl⟩
    · exact .inl ⟨_, .noText fun s same => valid (same ▸ s.isValidUTF8)⟩

theorem text_of_text (s : String) : (file s.toUTF8).text = .ok s := by
  have back : String.fromUTF8? s.toUTF8 = some s := dif_pos s.isValidUTF8
  rw [text, back]

theorem text_of_unreadable (unreadable : node.Unreadable e) : node.text = .error e := by
  cases unreadable with
  | directory => rfl
  | @noText bytes other =>
    have invalid : String.fromUTF8? bytes = none :=
      dif_neg fun valid => other (String.fromUTF8 bytes valid) rfl
    rw [text, invalid]

end FileTree

namespace Location

inductive Steps : Location → String → Location → Prop
  | stay {entries : List (String × FileTree)} {above : List FileTree} {part : String}
      (blank : part = "" ∨ part = ".") : Steps ⟨.dir entries, above⟩ part ⟨.dir entries, above⟩
  | up {entries : List (String × FileTree)} {parent : FileTree} {above : List FileTree} :
      Steps ⟨.dir entries, parent :: above⟩ ".." ⟨parent, above⟩
  | upAtTop {entries : List (String × FileTree)} :
      Steps ⟨.dir entries, []⟩ ".." ⟨.dir entries, []⟩
  | down {entries : List (String × FileTree)} {above : List FileTree} {name : String}
      {child : FileTree} (named : IsName name) (there : entries.lookup name = some child) :
      Steps ⟨.dir entries, above⟩ name ⟨child, .dir entries :: above⟩

/-- A part of a path that cannot be taken: a file is no directory, or the name is missing. -/
inductive Stuck : Location → String → IoError → Prop
  | atFile {bytes : ByteArray} {above : List FileTree} {part : String} :
      Stuck ⟨.file bytes, above⟩ part .notADirectory
  | missing {entries : List (String × FileTree)} {above : List FileTree} {name : String}
      (named : IsName name) (absent : entries.lookup name = none) :
      Stuck ⟨.dir entries, above⟩ name .notFound

inductive Leads : Location → List String → Location → Prop
  | here {l : Location} : Leads l [] l
  | step {l m goal : Location} {part : String} {rest : List String} (first : Steps l part m)
      (onward : Leads m rest goal) : Leads l (part :: rest) goal

/-- The parts lead to where one of them cannot be taken. -/
def Breaks (l : Location) (parts : List String) (e : IoError) : Prop :=
  ∃ before part after m, parts = before ++ part :: after ∧ Leads l before m ∧ Stuck m part e

variable {l m : Location} {part : String} {parts rest : List String} {e : IoError}

theorem steps_or_stuck (l : Location) (part : String) :
    (∃ m, Steps l part m) ∨ ∃ e, Stuck l part e := by
  match l with
  | ⟨.file bytes, above⟩ => exact .inr ⟨_, .atFile⟩
  | ⟨.dir entries, above⟩ =>
    by_cases blank : part = "" ∨ part = "."
    · exact .inl ⟨_, .stay blank⟩
    obtain ⟨notEmpty, notDot⟩ := not_or.mp blank
    by_cases up : part = ".."
    · subst up
      cases above with
      | nil => exact .inl ⟨_, .upAtTop⟩
      | cons parent above => exact .inl ⟨_, .up⟩
    · have named : IsName part := ⟨notEmpty, notDot, up⟩
      cases found : entries.lookup part with
      | none => exact .inr ⟨_, .missing named found⟩
      | some child => exact .inl ⟨_, .down named found⟩

theorem Steps.walk (step : Steps l part m) (rest : List String) :
    l.walk (part :: rest) = m.walk rest := by
  cases step with
  | stay blank => simp [Location.walk, blank]
  | up => simp [Location.walk]
  | upAtTop => simp [Location.walk]
  | down named there =>
    obtain ⟨notEmpty, notDot, notUp⟩ := named
    simp [Location.walk, notEmpty, notDot, notUp, there]

theorem Stuck.walk (stuck : Stuck l part e) (rest : List String) :
    l.walk (part :: rest) = .error e := by
  cases stuck with
  | atFile => rfl
  | missing named absent =>
    obtain ⟨notEmpty, notDot, notUp⟩ := named
    simp [Location.walk, notEmpty, notDot, notUp, absent]

theorem Leads.walk (leads : Leads l parts m) (rest : List String) :
    l.walk (parts ++ rest) = m.walk rest := by
  induction leads with
  | here => rfl
  | step first _ ih => exact (first.walk _).trans ih

theorem Breaks.walk (breaks : Breaks l parts e) : l.walk parts = .error e := by
  obtain ⟨before, part, after, m, rfl, leads, stuck⟩ := breaks
  rw [leads.walk, stuck.walk]

theorem leads_or_breaks (l : Location) (parts : List String) :
    (∃ m, Leads l parts m) ∨ ∃ e, Breaks l parts e := by
  induction parts generalizing l with
  | nil => exact .inl ⟨l, .here⟩
  | cons part rest ih =>
    obtain ⟨m, first⟩ | ⟨e, stuck⟩ := steps_or_stuck l part
    -- What is found behind the first step is found from here too, one part further on.
    · obtain ⟨goal, onward⟩ | ⟨e, before, name, after, last, rfl, leads, stuck⟩ := ih m
      · exact .inl ⟨goal, .step first onward⟩
      · exact .inr ⟨e, part :: before, name, after, last, rfl, .step first leads, stuck⟩
    · exact .inr ⟨e, [], part, rest, l, rfl, .here, stuck⟩

theorem walk_eq_ok_iff : l.walk parts = .ok m ↔ Leads l parts m := by
  have whole {m : Location} (leads : Leads l parts m) : l.walk parts = .ok m := by
    simpa [Location.walk] using leads.walk []
  constructor
  · intro walked
    obtain ⟨goal, leads⟩ | ⟨e, breaks⟩ := leads_or_breaks l parts
    · cases walked.symm.trans (whole leads)
      exact leads
    · cases walked.symm.trans breaks.walk
  · exact whole

theorem walk_eq_error_iff : l.walk parts = .error e ↔ Breaks l parts e := by
  constructor
  · intro walked
    obtain ⟨goal, leads⟩ | ⟨e', breaks⟩ := leads_or_breaks l parts
    · cases walked.symm.trans (walk_eq_ok_iff.mpr leads)
    · cases walked.symm.trans breaks.walk
      exact breaks
  · exact Breaks.walk

theorem leads_append {before after : List String} :
    Leads l (before ++ after) m ↔ ∃ k, Leads l before k ∧ Leads k after m := by
  constructor
  · intro leads
    induction before generalizing l with
    | nil => exact ⟨l, .here, leads⟩
    | cons part rest ih =>
      cases leads with
      | step first onward =>
        obtain ⟨k, left, right⟩ := ih onward
        exact ⟨k, .step first left, right⟩
  · rintro ⟨k, left, right⟩
    rw [← walk_eq_ok_iff, left.walk, walk_eq_ok_iff]
    exact right

theorem leads_single : Leads l [part] m ↔ Steps l part m := by
  constructor
  · intro leads
    cases leads with
    | step first onward =>
      cases onward
      exact first
  · exact fun first => .step first .here

/-- A path leads from here to a place. The empty path leads nowhere. -/
def Reaches (l : Location) (path : String) (place : Location) : Prop :=
  path ≠ "" ∧ Leads (l.start path) (pathParts path) place

def Misses (l : Location) (path : String) (e : IoError) : Prop :=
  path = "" ∧ e = .notFound ∨ path ≠ "" ∧ Breaks (l.start path) (pathParts path) e

variable {path : String} {place : Location}

theorem resolve_eq_ok_iff : l.resolve path = .ok place ↔ l.Reaches path place := by
  by_cases empty : path = ""
  · simp [resolve, Reaches, empty]
  · simp [resolve, Reaches, empty, walk_eq_ok_iff]

theorem resolve_eq_error_iff : l.resolve path = .error e ↔ l.Misses path e := by
  by_cases empty : path = ""
  · simp [resolve, Misses, empty, eq_comm]
  · simp [resolve, Misses, empty, walk_eq_error_iff]

theorem pathExists_iff : l.pathExists path = true ↔ ∃ place, l.Reaches path place := by
  simp only [pathExists, ← resolve_eq_ok_iff]
  cases l.resolve path <;> simp [Except.isOk, Except.toBool]

theorem misses_of_unreached (unreached : ∀ place, ¬ l.Reaches path place) :
    ∃ e, l.Misses path e := by
  simp only [← resolve_eq_ok_iff] at unreached
  simp only [← resolve_eq_error_iff]
  cases resolved : l.resolve path with
  | ok place => exact absurd resolved (unreached place)
  | error e => exact ⟨e, rfl⟩

theorem Misses.kind (misses : l.Misses path e) : e = .notFound ∨ e = .notADirectory := by
  obtain ⟨-, rfl⟩ | ⟨-, before, part, after, m, -, -, stuck⟩ := misses
  · exact .inl rfl
  · cases stuck with
    | atFile => exact .inr rfl
    | missing => exact .inl rfl

theorem readText_of_reaches (reaches : l.Reaches path place) :
    l.readText path = place.node.text := by
  rw [readText, resolve_eq_ok_iff.mpr reaches]
  rfl

theorem readText_of_misses (misses : l.Misses path e) : l.readText path = .error e := by
  rw [readText, resolve_eq_error_iff.mpr misses]
  rfl

end Location

def slash (base : String) : String := if base.endsWith "/" then "" else "/"

theorem endsWith_slash_iff {base : String} :
    base.endsWith "/" = true ↔ ∃ front, base = front ++ "/" := by
  rw [String.endsWith, String.Slice.endsWith_string_iff]
  simp only [List.suffix_iff_exists_append_eq, ← String.toList_inj, String.toList_append]
  constructor
  · rintro ⟨front, same⟩
    exact ⟨String.ofList front, by simpa using same.symm⟩
  · rintro ⟨front, same⟩
    exact ⟨front.toList, by simpa using same.symm⟩

section Parts

variable {base part : String}

theorem joinPath_eq (filled : base ≠ "") (plain : '/' ∉ part.toList) :
    joinPath base part = base ++ slash base ++ part := by
  have relative : part.startsWith "/" = false := by
    simp only [String.startsWith_string_eq_false_iff]
    exact fun front => plain (front.subset (by simp))
  by_cases closed : base.endsWith "/" = true <;> simp [joinPath, slash, relative, filled, closed]

theorem joinPath_ne_empty (filled : part ≠ "") : joinPath base part ≠ "" := by
  rw [joinPath]
  split
  · exact filled
  · split <;> simp [filled]

theorem slash_append (filled : part ≠ "") (plain : '/' ∉ part.toList) :
    slash (base ++ part) = "/" := by
  rw [slash, if_neg]
  intro closed
  obtain ⟨front, same⟩ := endsWith_slash_iff.mp closed
  have last : part.toList.getLast? = some '/' := by
    have ends := congrArg (fun s : String => s.toList.getLast?) same
    have chars : part.toList ≠ [] := mt String.toList_eq_nil_iff.mp filled
    simpa [List.getLast?_append_of_ne_nil _ chars] using ends
  exact plain (List.mem_of_getLast? last)

theorem pathParts_append (front back : String) :
    pathParts (front ++ "/" ++ back) = pathParts front ++ pathParts back := by
  simp [pathParts, List.splitOn_append_cons_self]

theorem pathParts_of_plain (plain : '/' ∉ part.toList) : pathParts part = [part] := by
  simp [pathParts, List.splitOn_eq_singleton plain]

namespace Location

variable {l dir place : Location}

theorem start_append (l : Location) (filled : base ≠ "") (back : String) :
    l.start (base ++ back) = l.start base := by
  obtain ⟨c, cs, chars⟩ := List.exists_cons_of_ne_nil (mt String.toList_eq_nil_iff.mp filled)
  simp [start, chars]

theorem Steps.eq_of_empty (empty : part = "") (step : Steps l part place) : place = l := by
  cases step with
  | stay => rfl
  | up => exact absurd empty (by decide)
  | upAtTop => rfl
  | down named => exact absurd empty named.1

theorem steps_name_iff {name : String} (named : IsName name) :
    Steps l name place ↔ ∃ entries above child, l = ⟨.dir entries, above⟩ ∧
      entries.lookup name = some child ∧ place = ⟨child, .dir entries :: above⟩ := by
  obtain ⟨notEmpty, notDot, notUp⟩ := named
  constructor
  · intro step
    cases step with
    | stay blank => exact absurd blank (not_or.mpr ⟨notEmpty, notDot⟩)
    | up => exact absurd rfl notUp
    | upAtTop => exact absurd rfl notUp
    | down _ there => exact ⟨_, _, _, rfl, there, rfl⟩
  · rintro ⟨entries, above, child, rfl, there, rfl⟩
    exact .down ⟨notEmpty, notDot, notUp⟩ there

theorem Steps.stays (step : Steps l part place) : Steps l "" l := by
  cases step <;> exact .stay (.inl rfl)

theorem leads_part (front : String) (plain : '/' ∉ part.toList) :
    Leads l (pathParts (front ++ "/" ++ part)) place ↔
      ∃ dir, Leads l (pathParts front) dir ∧ Steps dir part place := by
  simp only [pathParts_append, pathParts_of_plain plain, leads_append, leads_single]

theorem leads_slash (front : String) : Leads l (pathParts (front ++ "/")) dir ↔
    Leads l (pathParts front) dir ∧ Steps dir "" dir := by
  have empty : Leads l (pathParts (front ++ "/" ++ "")) dir ↔
      ∃ k, Leads l (pathParts front) k ∧ Steps k "" dir := leads_part front (by simp)
  rw [String.append_empty] at empty
  rw [empty]
  constructor
  · rintro ⟨k, leads, step⟩
    cases step.eq_of_empty rfl
    exact ⟨leads, step⟩
  · rintro ⟨leads, step⟩
    exact ⟨dir, leads, step⟩

/-- One part more, whether or not the path ends in a slash. -/
theorem reaches_joinPath (filled : base ≠ "") (plain : '/' ∉ part.toList) :
    l.Reaches (joinPath base part) place ↔ ∃ dir, l.Reaches base dir ∧ Steps dir part place := by
  have further : Leads (l.start base) (pathParts (base ++ slash base ++ part)) place ↔
      ∃ dir, Leads (l.start base) (pathParts base) dir ∧ Steps dir part place := by
    by_cases closed : base.endsWith "/" = true
    -- The slash at the end adds an empty part, which stays in any directory.
    · obtain ⟨front, rfl⟩ := endsWith_slash_iff.mp closed
      rw [slash, if_pos closed, String.append_empty, leads_part front plain]
      simp only [leads_slash, and_assoc]
      constructor
      · rintro ⟨dir, leads, step⟩
        exact ⟨dir, leads, step.stays, step⟩
      · rintro ⟨dir, leads, -, step⟩
        exact ⟨dir, leads, step⟩
    · rw [slash, if_neg closed, leads_part base plain]
  have same : l.start (base ++ slash base ++ part) = l.start base := by
    rw [String.append_assoc, start_append l filled]
  have longer : base ++ slash base ++ part ≠ "" := by simp [filled]
  rw [joinPath_eq filled plain, Reaches, same, further]
  simp only [Reaches, longer, filled, ne_eq, not_false_eq_true, true_and]

end Location

end Parts

end Switchboard
