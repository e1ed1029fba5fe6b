import Switchboard.Json.Document

namespace Switchboard.Json

namespace Doc

mutual

theorem read_ofJson : (v : Json) → (ofJson v).read = .ok v
  | .null | .bool _ | .num _ | .str _ => rfl
  | .arr items => by
    rw [ofJson, read, readItems_ofItems items]
    rfl
  | .obj entries => by
    rw [ofJson, read, readEntries_ofEntries entries]
    rfl

theorem readItems_ofItems : (items : List Json) → readItems (ofItems items) = .ok items
  | [] => rfl
  | item :: rest => by
    rw [ofItems, readItems, read_ofJson item, readItems_ofItems rest]
    rfl

theorem readEntries_ofEntries :
    (entries : List (String × Json)) → readEntries (ofEntries entries) = .ok entries
  | [] => rfl
  | (key, value) :: rest => by
    rw [ofEntries, readEntries, read_ofJson value, readEntries_ofEntries rest]
    rfl

end

mutual

theorem skim_ofJson : (v : Json) → (ofJson v).skim = .ok ()
  | .null | .bool _ | .num _ | .str _ => rfl
  | .arr items => by rw [ofJson, skim, skimItems_ofItems items]
  | .obj entries => by rw [ofJson, skim, skimEntries_ofEntries entries]

theorem skimItems_ofItems : (items : List Json) → skimItems (ofItems items) = .ok ()
  | [] => rfl
  | item :: rest => by
    rw [ofItems, skimItems, skim_ofJson item, skimItems_ofItems rest]
    rfl

theorem skimEntries_ofEntries :
    (entries : List (String × Json)) → skimEntries (ofEntries entries) = .ok ()
  | [] => rfl
  | (_, value) :: rest => by
    rw [ofEntries, skimEntries, skim_ofJson value, skimEntries_ofEntries rest]
    rfl

end

mutual

theorem eq_ofJson_of_read {v : Json} : {doc : Doc} → doc.read = .ok v → doc = ofJson v
  | .null, h | .bool _, h | .num _, h | .str _, h => by
    cases h
    rfl
  | .arr items, h => by
    cases found : readItems items with
    | error f => simp [read, found, bind, Except.bind] at h
    | ok vs =>
      simp only [read, found, bind, Except.bind, pure, Except.pure, Except.ok.injEq] at h
      rw [← h, eq_ofItems_of_read found, ofJson]
  | .obj entries, h => by
    cases found : readEntries entries with
    | error f => simp [read, found, bind, Except.bind] at h
    | ok es =>
      simp only [read, found, bind, Except.bind, pure, Except.pure, Except.ok.injEq] at h
      rw [← h, eq_ofEntries_of_read found, ofJson]
  | .unfit _, h | .broken _, h => by cases h

theorem eq_ofItems_of_read {vs : List Json} :
    {items : Items} → readItems items = .ok vs → items = ofItems vs
  | .close, h => by
    cases h
    rfl
  | .stop _, h => by cases h
  | .cons item rest, h => by
    cases head : read item with
    | error f => simp [readItems, head, bind, Except.bind] at h
    | ok v =>
      cases tail : readItems rest with
      | error f => simp [readItems, head, tail, bind, Except.bind] at h
      | ok vs' =>
        simp only [readItems, head, tail, bind, Except.bind, pure, Except.pure,
          Except.ok.injEq] at h
        rw [← h, eq_ofJson_of_read head, eq_ofItems_of_read tail, ofItems]

theorem eq_ofEntries_of_read {es : List (String × Json)} :
    {entries : Entries} → readEntries entries = .ok es → entries = ofEntries es
  | .close, h => by
    cases h
    rfl
  | .stop _, h => by cases h
  | .cons none _ _, h => by cases h
  | .cons (some key) value rest, h => by
    cases head : read value with
    | error f => simp [readEntries, head, bind, Except.bind] at h
    | ok v =>
      cases tail : readEntries rest with
      | error f => simp [readEntries, head, tail, bind, Except.bind] at h
      | ok es' =>
        simp only [readEntries, head, tail, bind, Except.bind, pure, Except.pure,
          Except.ok.injEq] at h
        rw [← h, eq_ofJson_of_read head, eq_ofEntries_of_read tail, ofEntries]

end

end Doc

end Switchboard.Json
