import Mathlib.Data.List.Basic
import Switchboard.Proofs.Json.Documents
import Switchboard.Record.Form

namespace Switchboard.Record.Form

open Json (Doc)

variable {F : Type} {Ty : F → Type} {form : Form F Ty}

/-- No two fields share a key, and none is listed twice. -/
structure Distinct (form : Form F Ty) : Prop where
  key : Function.Injective form.key
  fields : form.fields.Nodup

/-- The values that are written like the record: any object, and an array that is not too long. -/
def Fits (form : Form F Ty) : Json → Prop
  | .obj _ => True
  | .arr items => items.length ≤ form.fields.length
  | _ => False

/-- How a field gets its value: from the one that is there for it, or by default. -/
def Gives (form : Form F Ty) (f : F) (x : Ty f) : List Json → Prop
  | [] => form.fallback f = some x
  | [v] => form.read f (Doc.ofJson v) = .ok x
  | _ => False

/-- What is known of a field before and after the values that are there for it are read. -/
def Reads (form : Form F Ty) (f : F) : Option (Ty f) → List Json → Option (Ty f) → Prop
  | before, [], after => after = before
  | none, [v], after => ∃ x, form.read f (Doc.ofJson v) = .ok x ∧ after = some x
  | _, _, _ => False

theorem key_of_field? {key : String} {f : F} (found : form.field? key = some f) :
    form.key f = key := by
  simpa using List.find?_some found

theorem key_ne_of_field? {key : String} (unknown : form.field? key = none) (f : F) :
    key ≠ form.key f := by
  intro same
  have absent := List.find?_eq_none.mp unknown f (form.complete f)
  simp [same] at absent

theorem reads_known (f : F) (x : Ty f) (vs : List Json) (after : Option (Ty f)) :
    form.Reads f (some x) vs after ↔ vs = [] ∧ after = some x := by
  cases vs <;> simp [Reads]

theorem not_reads_cons {f : F} {v : Json} {p : Problem}
    (wrong : form.read f (Doc.ofJson v) = .error p) (before : Option (Ty f)) (vs : List Json)
    (after : Option (Ty f)) : ¬ form.Reads f before (v :: vs) after := by
  cases before <;> cases vs <;> simp [Reads, wrong]

theorem reads_cons {f : F} {v : Json} {x : Ty f} (reads : form.read f (Doc.ofJson v) = .ok x)
    (vs : List Json) (after : Option (Ty f)) :
    form.Reads f none (v :: vs) after ↔ form.Reads f (some x) vs after := by
  rw [reads_known]
  cases vs <;> simp [Reads, reads]

theorem finish_eq_ok_iff {absent : F → Mismatch} {draft : Draft Ty} {r : (f : F) → Ty f} :
    form.finish absent draft = .ok r ↔ ∀ f, form.value? draft f = some (r f) := by
  unfold finish
  split
  · rename_i f missing
    have none := List.find?_some missing
    simp only [reduceCtorEq, false_iff]
    intro all
    rw [all f] at none
    cases none
  · rename_i complete
    rw [Except.ok.injEq]
    constructor
    · rintro rfl f
      simp
    · intro all
      funext f
      simp [all f]

variable [DecidableEq F]

/-- What a value has for a field: all that stands under its key, or the item in its place. -/
def values (form : Form F Ty) (f : F) : Json → List Json
  | .obj entries => Assoc.under (form.key f) entries
  | .arr items => items[form.fields.idxOf f]?.toList
  | _ => []

theorem values_cons_self (f : F) (v : Json) (entries : List (String × Json)) :
    form.values f (.obj ((form.key f, v) :: entries)) = v :: form.values f (.obj entries) :=
  Assoc.under_cons_self _ _ _

theorem values_cons_other {key : String} {f : F} (v : Json) (entries : List (String × Json))
    (other : key ≠ form.key f) :
    form.values f (.obj ((key, v) :: entries)) = form.values f (.obj entries) :=
  Assoc.under_cons_other _ _ other

theorem Draft.set_self (draft : Draft Ty) (f : F) (x : Ty f) : Draft.set draft f x f = some x := by
  simp [Draft.set]

theorem Draft.set_other (draft : Draft Ty) {f g : F} (x : Ty f) (other : f ≠ g) :
    Draft.set draft f x g = draft g := by
  simp [Draft.set, other]

theorem readEntries_eq_ok_iff (distinct : form.Distinct) {draft after : Draft Ty}
    {entries : List (String × Json)} :
    form.readEntries draft (Doc.ofEntries entries) = .ok after ↔
      ∀ f, form.Reads f (draft f) (form.values f (.obj entries)) (after f) := by
  -- on the entries in their order, with the fields that were read so far as the draft
  induction entries generalizing draft with
  | nil =>
    simp only [Doc.ofEntries, readEntries, Except.ok.injEq, values, Assoc.under, List.filter_nil,
      List.map_nil, Reads]
    exact ⟨fun same f => by rw [same], fun same => (funext same).symm⟩
  | cons entry rest ih =>
    obtain ⟨key, v⟩ := entry
    cases field : form.field? key with
    | none =>
      have passed : form.readEntries draft (Doc.ofEntries ((key, v) :: rest)) =
          form.readEntries draft (Doc.ofEntries rest) := by
        simp [Doc.ofEntries, readEntries, field, Doc.skim_ofJson, ofFault, bind, Except.bind]
      rw [passed, ih]
      exact forall_congr' fun f => by rw [values_cons_other _ _ (key_ne_of_field? field f)]
    | some f =>
      obtain rfl := key_of_field? field
      cases known : draft f with
      | some x =>
        have repeated : form.readEntries draft (Doc.ofEntries ((form.key f, v) :: rest)) =
            .error (.mismatch (.duplicate (form.key f))) := by
          simp [Doc.ofEntries, readEntries, field, known]
        simp only [repeated, reduceCtorEq, false_iff]
        intro all
        have here := all f
        rw [known, values_cons_self, reads_known] at here
        exact absurd here.1 (List.cons_ne_nil _ _)
      | none =>
        cases reads : form.read f (Doc.ofJson v) with
        | error p =>
          have stops : form.readEntries draft (Doc.ofEntries ((form.key f, v) :: rest)) =
              .error p := by
            simp [Doc.ofEntries, readEntries, field, known, reads, bind, Except.bind]
          simp only [stops, reduceCtorEq, false_iff]
          intro all
          have here := all f
          rw [values_cons_self] at here
          exact not_reads_cons reads _ _ _ here
        | ok x =>
          have goesOn : form.readEntries draft (Doc.ofEntries ((form.key f, v) :: rest)) =
              form.readEntries (Draft.set draft f x) (Doc.ofEntries rest) := by
            simp [Doc.ofEntries, readEntries, field, known, reads, bind, Except.bind]
          rw [goesOn, ih]
          apply forall_congr'
          intro g
          by_cases same : f = g
          · subst same
            rw [Draft.set_self, known, values_cons_self, reads_cons reads]
          · rw [Draft.set_other _ _ same,
              values_cons_other _ _ fun equal => same (distinct.key equal)]

theorem readItems_eq_ok_iff {origin : Origin} {draft after : Draft Ty} {count : Nat}
    {fields : List F} {items : List Json} (nodup : fields.Nodup)
    (unread : ∀ f ∈ fields, draft f = none) :
    (∃ n, form.readItems origin draft count fields (Doc.ofItems items) = .ok (after, n)) ↔
      items.length ≤ fields.length ∧
        ∀ f, form.Reads f (draft f) (items[fields.idxOf f]?.toList) (after f) := by
  induction items generalizing fields draft count with
  | nil =>
    have closed : form.readItems origin draft count fields (Doc.ofItems []) =
        .ok (draft, count) := by
      cases fields <;> rfl
    simp only [closed, Except.ok.injEq, Prod.mk.injEq, exists_and_left, exists_eq', and_true,
      List.length_nil, Nat.zero_le, true_and, List.getElem?_nil, Option.toList_none, Reads]
    exact ⟨fun same f => by rw [same], fun same => (funext same).symm⟩
  | cons v rest ih =>
    cases fields with
    | nil => simp [Doc.ofItems, readItems]
    | cons f fields =>
      obtain ⟨fresh, nodup⟩ := List.nodup_cons.mp nodup
      have known : draft f = none := unread f List.mem_cons_self
      cases reads : form.read f (Doc.ofJson v) with
      | error p =>
        have stops : form.readItems origin draft count (f :: fields) (Doc.ofItems (v :: rest)) =
            .error p := by
          simp [Doc.ofItems, readItems, reads, bind, Except.bind]
        simp only [stops, reduceCtorEq, exists_false, false_iff, not_and]
        intro _ all
        have here := all f
        rw [List.idxOf_cons_self, List.getElem?_cons_zero, Option.toList_some] at here
        exact not_reads_cons reads _ _ _ here
      | ok x =>
        have goesOn : form.readItems origin draft count (f :: fields) (Doc.ofItems (v :: rest)) =
            form.readItems origin (Draft.set draft f x) (count + 1) fields (Doc.ofItems rest) := by
          simp [Doc.ofItems, readItems, reads, bind, Except.bind]
        have still : ∀ g ∈ fields, Draft.set draft f x g = none := by
          intro g member
          have other : f ≠ g := fun same => fresh (same ▸ member)
          rw [Draft.set_other _ _ other]
          exact unread g (List.mem_cons_of_mem _ member)
        rw [goesOn, ih nodup still, List.length_cons, List.length_cons, Nat.add_le_add_iff_right]
        refine and_congr_right fun short => forall_congr' fun g => ?_
        by_cases same : f = g
        · subst same
          have beyond : rest[fields.idxOf f]? = none := by
            rw [List.idxOf_eq_length fresh]
            exact List.getElem?_eq_none short
          rw [Draft.set_self, known, List.idxOf_cons_self, List.getElem?_cons_zero, beyond,
            Option.toList_some, Option.toList_none, reads_cons reads]
        · rw [Draft.set_other _ _ same, List.idxOf_cons_ne _ same, List.getElem?_cons_succ]

theorem exists_draft_iff {v : Json} {r : (f : F) → Ty f} :
    (∃ draft : Draft Ty, (∀ f, form.Reads f none (form.values f v) (draft f)) ∧
        ∀ f, form.value? draft f = some (r f)) ↔
      ∀ f, form.Gives f (r f) (form.values f v) := by
  constructor
  · rintro ⟨draft, reads, all⟩ f
    have here := reads f
    have given := all f
    match values : form.values f v with
    | [] =>
      rw [values] at here
      rw [value?, show draft f = none from here] at given
      exact given
    | [w] =>
      rw [values] at here
      obtain ⟨x, read, known⟩ := here
      rw [value?, known] at given
      cases given
      exact read
    | _ :: _ :: _ =>
      rw [values] at here
      exact here
  · intro gives
    refine ⟨fun f => if form.values f v = [] then none else some (r f), fun f => ?_, fun f => ?_⟩
    · have here := gives f
      match values : form.values f v with
      | [] => simp [Reads, values]
      | [w] =>
        rw [values] at here
        exact ⟨r f, here, by simp [values]⟩
      | _ :: _ :: _ =>
        rw [values] at here
        exact here.elim
    · have here := gives f
      match values : form.values f v with
      | [] =>
        rw [values] at here
        rw [value?, if_pos values]
        exact here
      | _ :: _ => simp [value?, values]

/-- A record is read from a value that is written like it, when each field gets its value from the
    one that is there for it. The order of the entries and keys of no field do not matter. -/
theorem readRecord_eq_ok_iff (distinct : form.Distinct) {origin : Origin} {v : Json}
    {r : (f : F) → Ty f} :
    form.readRecord origin (Doc.ofJson v) = .ok r ↔
      form.Fits v ∧ ∀ f, form.Gives f (r f) (form.values f v) := by
  rw [← exists_draft_iff]
  cases v with
  | null | bool _ | str _ =>
    simp [Doc.ofJson, readRecord, wrongType, found, Fits, bind, Except.bind, throw,
      throwThe, MonadExceptOf.throw]
  | num n =>
    cases n <;> simp [Doc.ofJson, readRecord, wrongType, found, Fits, bind, Except.bind, throw,
      throwThe, MonadExceptOf.throw]
  | obj entries =>
    rw [Doc.ofJson, readRecord]
    simp only [Fits, true_and]
    constructor
    · intro whole
      cases reads : form.readEntries Draft.empty (Doc.ofEntries entries) with
      | error p => simp [reads, bind, Except.bind] at whole
      | ok draft =>
        simp only [reads, bind, Except.bind] at whole
        exact ⟨draft, (readEntries_eq_ok_iff distinct).mp reads, finish_eq_ok_iff.mp whole⟩
    · rintro ⟨draft, reads, all⟩
      have read : form.readEntries Draft.empty (Doc.ofEntries entries) = .ok draft :=
        (readEntries_eq_ok_iff distinct).mpr reads
      simp only [read, bind, Except.bind]
      exact finish_eq_ok_iff.mpr all
  | arr items =>
    rw [Doc.ofJson, readRecord]
    have unread : ∀ f ∈ form.fields, (Draft.empty : Draft Ty) f = none := fun _ _ => rfl
    constructor
    · intro whole
      cases reads : form.readItems origin Draft.empty 0 form.fields (Doc.ofItems items) with
      | error p => simp [reads, bind, Except.bind] at whole
      | ok result =>
        obtain ⟨draft, n⟩ := result
        simp only [reads, bind, Except.bind] at whole
        obtain ⟨short, each⟩ := (readItems_eq_ok_iff distinct.fields unread).mp ⟨n, reads⟩
        exact ⟨short, draft, each, finish_eq_ok_iff.mp whole⟩
    · rintro ⟨short, draft, each, all⟩
      have whole : ∃ n, form.readItems origin Draft.empty 0 form.fields (Doc.ofItems items) =
          .ok (draft, n) := (readItems_eq_ok_iff distinct.fields unread).mpr ⟨short, each⟩
      obtain ⟨n, read⟩ := whole
      simp only [read, bind, Except.bind]
      exact finish_eq_ok_iff.mpr all

end Switchboard.Record.Form
