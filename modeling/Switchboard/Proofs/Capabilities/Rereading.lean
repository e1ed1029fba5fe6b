import Switchboard.Capabilities.Advertised
import Switchboard.Mux.CallSide.Basic

namespace Switchboard

namespace Schema

mutual

def distinct : Schema → Bool
  | .list item => distinct item
  | .oneOf alternatives => distinctAll alternatives
  | .record _ fields => decide (fields.map Prod.fst).Nodup && distinctFields fields
  | _ => true

def distinctAll : List Schema → Bool
  | [] => true
  | s :: rest => distinct s && distinctAll rest

def distinctFields : List (String × Presence × Schema) → Bool
  | [] => true
  | (_, _, s) :: rest => distinct s && distinctFields rest

end

/-- What the schema writes it can read. -/
def Rereads (s : Schema) : Prop := ∀ v r, s.read v = some r → ∃ r', s.read r = some r'

/-- The entries that a record writes, field by field, each from the value that is there for it. -/
inductive Writes : List (String × Presence × Schema) → List (String × Json) → Prop
  | nil : Writes [] []
  | cons {key presence s value entry fields entries} :
    readField key presence (read s) value = some entry → Writes fields entries →
    Writes ((key, presence, s) :: fields) (entry ++ entries)

theorem writes_readEntries {fields : List (String × Presence × Schema)}
    {entries written : List (String × Json)} (read : readEntries fields entries = some written) :
    Writes fields written := by
  induction fields generalizing written with
  | nil =>
    cases read
    exact .nil
  | cons field fields ih =>
    obtain ⟨key, presence, s⟩ := field
    rw [readEntries] at read
    obtain ⟨entry, head, tail⟩ := Option.bind_eq_some_iff.mp read
    obtain ⟨rest, more, whole⟩ := Option.bind_eq_some_iff.mp tail
    cases whole
    exact .cons head (ih more)

theorem writes_readItems {fields : List (String × Presence × Schema)} {items : List Json}
    {written : List (String × Json)} (read : readItems fields items = some written) :
    Writes fields written := by
  induction fields generalizing items written with
  | nil =>
    cases items with
    | nil =>
      cases read
      exact .nil
    | cons _ _ => cases read
  | cons field fields ih =>
    obtain ⟨key, presence, s⟩ := field
    cases items with
    | nil => cases read
    | cons v vs =>
      rw [readItems] at read
      obtain ⟨entry, head, tail⟩ := Option.bind_eq_some_iff.mp read
      obtain ⟨rest, more, whole⟩ := Option.bind_eq_some_iff.mp tail
      cases whole
      exact .cons head (ih more)

theorem readFirst_eq_some {alternatives : List Schema} {v r : Json}
    (read : readFirst alternatives v = some r) : ∃ s ∈ alternatives, s.read v = some r := by
  induction alternatives with
  | nil => cases read
  | cons s rest ih =>
    rw [readFirst] at read
    cases head : s.read v with
    | some r' =>
      rw [head] at read
      exact ⟨s, List.mem_cons_self, head.trans read⟩
    | none =>
      rw [head] at read
      obtain ⟨t, member, found⟩ := ih read
      exact ⟨t, List.mem_cons_of_mem _ member, found⟩

theorem readFirst_isSome {alternatives : List Schema} {s : Schema} (member : s ∈ alternatives)
    {v r : Json} (read : s.read v = some r) : ∃ r', readFirst alternatives v = some r' := by
  induction alternatives with
  | nil => cases member
  | cons t rest ih =>
    rw [readFirst]
    cases head : t.read v with
    | some r' => exact ⟨r', rfl⟩
    | none =>
      rcases List.mem_cons.mp member with rfl | later
      · rw [head] at read
        cases read
      · exact ih later

theorem rereads_oneOf {alternatives : List Schema} (rereads : ∀ s ∈ alternatives, s.Rereads) :
    (oneOf alternatives).Rereads := by
  intro v r decoded
  rw [read] at decoded ⊢
  obtain ⟨s, member, found⟩ := readFirst_eq_some decoded
  obtain ⟨r', again⟩ := rereads s member v r found
  exact readFirst_isSome member again

theorem mapM_again {f : Json → Option Json} (again : ∀ v r, f v = some r → ∃ r', f r = some r')
    {vs rs : List Json} (all : vs.mapM f = some rs) : ∃ rs', rs.mapM f = some rs' := by
  induction vs generalizing rs with
  | nil =>
    cases all
    exact ⟨[], rfl⟩
  | cons v vs ih =>
    rw [List.mapM_cons] at all
    obtain ⟨r, head, tail⟩ := Option.bind_eq_some_iff.mp all
    obtain ⟨rest, more, whole⟩ := Option.bind_eq_some_iff.mp tail
    cases whole
    obtain ⟨r', once⟩ := again v r head
    obtain ⟨rest', others⟩ := ih more
    exact ⟨r' :: rest', by rw [List.mapM_cons, once, others]; rfl⟩

theorem rereads_list {item : Schema} (rereads : item.Rereads) : (list item).Rereads := by
  intro v r decoded
  cases v with
  | arr vs =>
    rw [read] at decoded
    obtain ⟨rs, each, rfl⟩ := Option.map_eq_some_iff.mp decoded
    obtain ⟨rs', all⟩ := mapM_again rereads each
    exact ⟨.arr rs', by rw [read, all]; rfl⟩
  | _ => simp [read] at decoded

theorem chosen?_eq_some {names : List String} {v r : Json} (chosen : chosen? names v = some r) :
    ∃ s, names.contains s = true ∧ r = .str s := by
  unfold chosen? at chosen
  split at chosen
  · rename_i s
    obtain ⟨known, same⟩ := Option.ite_none_right_eq_some.mp chosen
    exact ⟨s, known, (Option.some.inj same).symm⟩
  · rename_i s
    obtain ⟨known, same⟩ := Option.ite_none_right_eq_some.mp chosen
    exact ⟨s, known, (Option.some.inj same).symm⟩
  · cases chosen

theorem rereads_choice (names : List String) : (choice names).Rereads := by
  intro v r decoded
  rw [read] at decoded
  obtain ⟨s, known, rfl⟩ := chosen?_eq_some decoded
  exact ⟨.str s, by rw [read, chosen?, if_pos known]⟩

theorem rereads_int32 : int32.Rereads := by
  intro v r decoded
  match v with
  | .num (.int n) =>
    by_cases fits : Width.isInt32 n
    · simp only [read, fits, if_true, Option.some.injEq] at decoded
      subst decoded
      exact ⟨_, by rw [read, if_pos fits]⟩
    · simp [read, fits] at decoded
  | .num (.float _) | .null | .bool _ | .str _ | .arr _ | .obj _ => simp [read] at decoded

theorem eq_null_of_read : (s : Schema) → {v : Json} → s.read v = some .null → v = .null
  | .any, v, decoded => by
    rw [read] at decoded
    exact Option.some.inj decoded
  | .oneOf alternatives, v, decoded => by
    rw [read] at decoded
    exact eq_null_of_readFirst alternatives decoded
  | .bool, v, decoded => by cases v <;> simp [read] at decoded
  | .str, v, decoded => by cases v <;> simp [read] at decoded
  | .int32, v, decoded => by
    rcases v with _ | _ | ⟨_ | _⟩ | _ | _ | _ <;> simp [read] at decoded
  | .list item, v, decoded => by cases v <;> simp [read] at decoded
  | .choice names, v, decoded => by
    rw [read] at decoded
    obtain ⟨_, _, same⟩ := chosen?_eq_some decoded
    cases same
  | .record shape fields, v, decoded => by
    cases v <;> cases shape <;> simp [read, Json.object] at decoded
where
  eq_null_of_readFirst : (alternatives : List Schema) → {v : Json} →
      readFirst alternatives v = some .null → v = .null
    | [], _, decoded => by cases decoded
    | s :: rest, v, decoded => by
      rw [readFirst] at decoded
      cases head : s.read v with
      | some r =>
        rw [head] at decoded
        exact eq_null_of_read s (head.trans decoded)
      | none =>
        rw [head] at decoded
        exact eq_null_of_readFirst rest decoded

theorem readField_of_there {key : String} {presence : Presence} {read : Json → Option Json}
    {v : Json} (there : v ≠ .null ∨ presence = .required) :
    readField key presence read (some v) = (read v).map fun r => [(key, r)] := by
  cases presence <;> cases v <;> simp_all [readField]

theorem readField_eq_some {key : String} {presence : Presence} {read : Json → Option Json}
    {value : Option Json} {entry : List (String × Json)}
    (written : readField key presence read value = some entry) :
    presence = .optional ∧ entry = [] ∨ presence = .nullable ∧ entry = [(key, .null)] ∨
      ∃ v r, (v ≠ .null ∨ presence = .required) ∧ read v = some r ∧ entry = [(key, r)] := by
  match value with
  | none =>
    cases presence with
    | required => cases written
    | optional =>
      cases written
      exact .inl ⟨rfl, rfl⟩
    | nullable =>
      cases written
      exact .inr (.inl ⟨rfl, rfl⟩)
  | some v =>
    by_cases there : v ≠ .null ∨ presence = .required
    · rw [readField_of_there there] at written
      obtain ⟨r, found, rfl⟩ := Option.map_eq_some_iff.mp written
      exact .inr (.inr ⟨v, r, there, found, rfl⟩)
    · obtain ⟨null, lax⟩ := not_or.mp there
      obtain rfl := Classical.not_not.mp null
      cases presence with
      | required => exact absurd rfl lax
      | optional =>
        cases written
        exact .inl ⟨rfl, rfl⟩
      | nullable =>
        cases written
        exact .inr (.inl ⟨rfl, rfl⟩)

theorem keys_of_readField {key : String} {presence : Presence} {read : Json → Option Json}
    {value : Option Json} {entry : List (String × Json)}
    (written : readField key presence read value = some entry) :
    (Assoc.keys entry).Sublist [key] := by
  rcases readField_eq_some written with ⟨-, rfl⟩ | ⟨-, rfl⟩ | ⟨v, r, -, -, rfl⟩
  · exact List.nil_sublist _
  · exact List.Sublist.refl _
  · exact List.Sublist.refl _

theorem readField_again {key : String} {presence : Presence} {s : Schema} {value : Option Json}
    {entry : List (String × Json)} (rereads : s.Rereads)
    (written : readField key presence s.read value = some entry) :
    ∃ again, readField key presence s.read (entry.lookup key) = some again ∧
      Assoc.keys again = Assoc.keys entry := by
  rcases readField_eq_some written with ⟨rfl, rfl⟩ | ⟨rfl, rfl⟩ | ⟨v, r, there, found, rfl⟩
  · exact ⟨[], rfl, rfl⟩
  · exact ⟨[(key, .null)], by simp [readField], rfl⟩
  · obtain ⟨r', again⟩ := rereads v r found
    have stays : r ≠ .null ∨ presence = .required := by
      apply there.imp_left
      intro present gone
      exact present (eq_null_of_read s (gone ▸ found))
    refine ⟨[(key, r')], ?_, rfl⟩
    rw [Assoc.lookup_cons_if, if_pos rfl, readField_of_there stays, again]
    rfl

theorem Writes.sublist {fields : List (String × Presence × Schema)}
    {written : List (String × Json)} (writes : Writes fields written) :
    (Assoc.keys written).Sublist (fields.map Prod.fst) := by
  induction writes with
  | nil => exact List.Sublist.refl _
  | cons head _ ih =>
    rw [Assoc.keys, List.map_append]
    exact (keys_of_readField head).append ih

theorem Writes.again {fields : List (String × Presence × Schema)}
    {written : List (String × Json)} (writes : Writes fields written)
    (nodup : (fields.map Prod.fst).Nodup) (rereads : ∀ f ∈ fields, f.2.2.Rereads)
    {found : List (String × Json)}
    (same : ∀ key ∈ fields.map Prod.fst, found.lookup key = written.lookup key) :
    ∃ again, readEntries fields found = some again ∧ Assoc.keys again = Assoc.keys written := by
  induction writes with
  | nil => exact ⟨[], rfl, rfl⟩
  | @cons key presence s value entry fields entries head tail ih =>
    obtain ⟨fresh, nodup⟩ := List.nodup_cons.mp nodup
    have here : found.lookup key = entry.lookup key := by
      have later : entries.lookup key = none :=
        Assoc.lookup_eq_none fun member => fresh (tail.sublist.subset member)
      rw [same key List.mem_cons_self, List.lookup_append, later, Option.or_none]
    have there : ∀ k ∈ fields.map Prod.fst, found.lookup k = entries.lookup k := by
      intro k member
      have earlier : entry.lookup k = none := by
        apply Assoc.lookup_eq_none
        intro known
        have equal : k = key := by simpa using (keys_of_readField head).subset known
        exact fresh (equal ▸ member)
      rw [same k (List.mem_cons_of_mem _ member), List.lookup_append, earlier, Option.none_or]
    obtain ⟨first, firstRead, firstKeys⟩ :=
      readField_again (rereads _ List.mem_cons_self) head
    obtain ⟨rest, restRead, restKeys⟩ :=
      ih nodup (fun f member => rereads f (List.mem_cons_of_mem _ member)) there
    refine ⟨first ++ rest, ?_, ?_⟩
    · rw [readEntries, here, firstRead, restRead]
      rfl
    · rw [Assoc.keys, Assoc.keys, List.map_append, List.map_append]
      change Assoc.keys first ++ Assoc.keys rest = Assoc.keys entry ++ Assoc.keys entries
      rw [firstKeys, restKeys]

theorem writes_of_read {shape : RecordShape} {fields : List (String × Presence × Schema)}
    {v r : Json} (decoded : (record shape fields).read v = some r) :
    ∃ written, Writes fields written ∧ r = .object written := by
  match v, shape with
  | .obj entries, shape =>
    rw [read] at decoded
    obtain ⟨written, found, rfl⟩ := Option.map_eq_some_iff.mp decoded
    exact ⟨written, writes_readEntries found, rfl⟩
  | .arr items, .plain =>
    rw [read] at decoded
    obtain ⟨written, found, rfl⟩ := Option.map_eq_some_iff.mp decoded
    exact ⟨written, writes_readItems found, rfl⟩
  | .arr _, .keyed | .null, _ | .bool _, _ | .num _, _ | .str _, _ => simp [read] at decoded

/-- A record reads again what it has written, with the same fields. -/
theorem record_again {shape : RecordShape} {fields : List (String × Presence × Schema)}
    {written : List (String × Json)} (writes : Writes fields written)
    (nodup : (fields.map Prod.fst).Nodup) (rereads : ∀ f ∈ fields, f.2.2.Rereads) :
    ∃ again, (record shape fields).read (.object written) = some (.object again) ∧
      Assoc.keys again = Assoc.keys written := by
  have kept (key : String) : (Assoc.ofList written).lookup key = written.lookup key :=
    Assoc.lookup_ofList (writes.sublist.nodup nodup) key
  obtain ⟨again, found, keys⟩ := writes.again nodup rereads fun key _ => kept key
  refine ⟨again, ?_, keys⟩
  rw [Json.object, read, found]
  rfl

mutual

theorem rereads : (s : Schema) → s.distinct = true → s.Rereads
  | .any, _ => fun v r decoded => ⟨r, rfl⟩
  | .bool, _ => fun v r decoded => by
    cases v <;> simp [read] at decoded
    exact ⟨r, by rw [← decoded, read]⟩
  | .str, _ => fun v r decoded => by
    cases v <;> simp [read] at decoded
    exact ⟨r, by rw [← decoded, read]⟩
  | .int32, _ => rereads_int32
  | .choice names, _ => rereads_choice names
  | .list item, apart => rereads_list (rereads item apart)
  | .oneOf alternatives, apart => rereads_oneOf (rereadsAll alternatives apart)
  | .record shape fields, apart => fun v r decoded => by
    obtain ⟨nodup, inside⟩ := Bool.and_eq_true_iff.mp apart
    obtain ⟨written, writes, rfl⟩ := writes_of_read decoded
    obtain ⟨again, found, -⟩ :=
      record_again writes (of_decide_eq_true nodup) (rereadsFields fields inside)
    exact ⟨_, found⟩

theorem rereadsAll : (alternatives : List Schema) → distinctAll alternatives = true →
    ∀ s ∈ alternatives, s.Rereads
  | [], _ => nofun
  | s :: rest, apart => by
    obtain ⟨head, tail⟩ := Bool.and_eq_true_iff.mp apart
    exact List.forall_mem_cons.mpr ⟨rereads s head, rereadsAll rest tail⟩

theorem rereadsFields : (fields : List (String × Presence × Schema)) →
    distinctFields fields = true → ∀ f ∈ fields, f.2.2.Rereads
  | [], _ => nofun
  | (_, _, s) :: rest, apart => by
    obtain ⟨head, tail⟩ := Bool.and_eq_true_iff.mp apart
    exact List.forall_mem_cons.mpr ⟨rereads s head, rereadsFields rest tail⟩

end

end Schema

namespace Capabilities

theorem distinct_serverCapabilities : Provider.serverCapabilities.distinct = true := by
  decide

def resultWith (set : Json) : Json := .obj [("capabilities", set)]

theorem advertised_resultWith {set r : Json}
    (decoded : Provider.serverCapabilities.read set = some r) :
    advertised (resultWith set) = .ok r := by
  simp [advertised, resultWith, Json.get?, decoded]

theorem read_of_advertised {result set : Json} (decoded : advertised result = .ok set) :
    ∃ raw, Provider.serverCapabilities.read raw = some set := by
  unfold advertised at decoded
  split at decoded
  · cases decoded
  · split at decoded
    · cases decoded
    · rename_i raw _ _ _ found
      cases decoded
      exact ⟨raw, found⟩

end Capabilities

namespace Mux

open Capabilities

/-- A capability set that a backend advertises is one that can be advertised again. Its providers'
    options may come out smaller, since an alternative that keeps less of them may read them now,
    but the providers stay. -/
theorem capabilities_again {a : Agent} {set : Json} (decoded : advertised a.result = .ok set) :
    ∃ entries again, a.capabilities = .obj entries ∧
      advertised (resultWith a.capabilities) = .ok (.obj again) ∧
      issue? (resultWith a.capabilities) = none ∧
      ofResult (resultWith a.capabilities) = .obj again ∧
      Assoc.keys again = Assoc.keys entries := by
  have reported : a.capabilities = set := by
    rw [Agent.capabilities, ofResult, decoded]
    rfl
  obtain ⟨raw, read⟩ := read_of_advertised decoded
  obtain ⟨nodup, inside⟩ := Bool.and_eq_true_iff.mp distinct_serverCapabilities
  obtain ⟨written, writes, rfl⟩ := Schema.writes_of_read read
  obtain ⟨again, found, keys⟩ :=
    Schema.record_again writes (of_decide_eq_true nodup) (Schema.rereadsFields _ inside)
  have ok := advertised_resultWith found
  refine ⟨Assoc.ofList written, Assoc.ofList again, reported, ?_⟩
  rw [reported, issue?, ofResult, ok]
  exact ⟨rfl, rfl, rfl, Assoc.keys_ofList_congr keys⟩

/-- The set of this backend is no longer the same when it is advertised again: the options of its
    color provider read as an empty record then. -/
theorem capabilities_again_color :
    let a : Agent := ⟨"chroma", .obj [("capabilities", .obj [
      ("colorProvider", .arr [.null, .str "palette"]), ("hoverProvider", .bool true),
      ("paletteProvider", .bool true), ("renameProvider", .null)])]⟩
    advertised a.result = .ok (.obj [
        ("colorProvider", .obj [("documentSelector", .null), ("id", .str "palette")]),
        ("hoverProvider", .bool true)]) ∧
      advertised (resultWith a.capabilities) = .ok (.obj [
        ("colorProvider", .obj []), ("hoverProvider", .bool true)]) ∧
      ∃ entries again, a.capabilities = .obj entries ∧
        advertised (resultWith a.capabilities) = .ok (.obj again) ∧
        issue? (resultWith a.capabilities) = none ∧
        ofResult (resultWith a.capabilities) = .obj again ∧
        Assoc.keys again = Assoc.keys entries := by
  intro a
  have decoded : advertised a.result = .ok (.obj [
      ("colorProvider", .obj [("documentSelector", .null), ("id", .str "palette")]),
      ("hoverProvider", .bool true)]) := by rfl
  exact ⟨decoded, by rfl, capabilities_again decoded⟩

end Mux

end Switchboard
