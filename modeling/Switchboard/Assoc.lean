namespace Switchboard.Assoc

variable {α : Type}

/-- Sorted insertion; what was there under the key is replaced. -/
def put (key : String) (value : α) : List (String × α) → List (String × α)
  | [] => [(key, value)]
  | (k, v) :: rest =>
    if key = k then (key, value) :: rest
    else if key < k then (key, value) :: (k, v) :: rest
    else (k, v) :: put key value rest

def keys (entries : List (String × α)) : List String := entries.map Prod.fst

def Sorted (entries : List (String × α)) : Prop := (keys entries).Pairwise (· < ·)

def under (key : String) (entries : List (String × α)) : List α :=
  (entries.filter fun e => e.1 == key).map Prod.snd

/-- The entries in order, a later one replacing an earlier one of its key. -/
def ofList (entries : List (String × α)) : List (String × α) :=
  entries.foldl (fun acc e => put e.1 e.2 acc) []

theorem lookup_cons_if (k k' : String) (v : α) (rest : List (String × α)) :
    ((k', v) :: rest).lookup k = if k = k' then some v else rest.lookup k := by
  by_cases h : k = k'
  · simp [h]
  · have hb : (k == k') = false := by simpa using h
    rw [List.lookup_cons, hb, if_neg h]

theorem lookup_put (key k : String) (value : α) (entries : List (String × α)) :
    (put key value entries).lookup k = if k = key then some value else entries.lookup k := by
  induction entries with
  | nil => simp [put, lookup_cons_if]
  | cons e rest ih =>
    obtain ⟨k', v⟩ := e
    by_cases h : key = k'
    · subst h
      by_cases hk : k = key <;> simp [put, lookup_cons_if, hk]
    · by_cases lt : key < k'
      · simp [put, h, lt, lookup_cons_if]
      · by_cases hk : k = key
        · subst hk; simp [put, h, lt, lookup_cons_if, ih]
        · simp [put, h, lt, lookup_cons_if, ih, hk]

theorem mem_keys_put {key k : String} {value : α} {entries : List (String × α)} :
    k ∈ keys (put key value entries) ↔ k = key ∨ k ∈ keys entries := by
  induction entries with
  | nil => simp [put, keys]
  | cons e rest ih =>
    obtain ⟨k', v⟩ := e
    by_cases h : key = k'
    · subst h; simp [put, keys]
    · by_cases lt : key < k'
      · simp [put, h, lt, keys]
      · simp only [put, h, lt, if_false, keys, List.map_cons, List.mem_cons]
        exact (or_congr_right ih).trans or_left_comm

theorem mem_put {key : String} {value : α} {entries : List (String × α)} {e : String × α}
    (member : e ∈ put key value entries) : e = (key, value) ∨ e ∈ entries := by
  induction entries with
  | nil => exact .inl (List.mem_singleton.mp member)
  | cons first rest ih =>
    rw [put] at member
    split at member
    · exact (List.mem_cons.mp member).imp_right (List.mem_cons_of_mem _)
    · split at member
      · exact List.mem_cons.mp member
      · rcases List.mem_cons.mp member with rfl | later
        · exact .inr List.mem_cons_self
        · exact (ih later).imp_right (List.mem_cons_of_mem _)

theorem Sorted.put {entries : List (String × α)} (sorted : Sorted entries) (key : String)
    (value : α) : Sorted (put key value entries) := by
  induction entries with
  | nil => exact List.pairwise_singleton _ _
  | cons e rest ih =>
    obtain ⟨k, v⟩ := e
    obtain ⟨head, tail⟩ := List.pairwise_cons.mp sorted
    by_cases h : key = k
    · subst h
      simp only [Assoc.put, if_true]
      exact sorted
    · by_cases lt : key < k
      · simp only [Assoc.put, h, lt, if_true, if_false]
        refine List.pairwise_cons.mpr ⟨fun k' member => ?_, sorted⟩
        rcases List.mem_cons.mp member with rfl | member
        · exact lt
        · exact String.lt_trans lt (head _ member)
      · simp only [Assoc.put, h, lt, if_false]
        refine List.pairwise_cons.mpr ⟨fun k' member => ?_, ih tail⟩
        rcases mem_keys_put.mp member with rfl | member
        · exact String.not_le.mp fun le => h (String.le_antisymm le (String.not_lt.mp lt))
        · exact head _ member

theorem under_cons_self (key : String) (v : α) (rest : List (String × α)) :
    under key ((key, v) :: rest) = v :: under key rest := by
  simp [under]

theorem under_cons_other {key k : String} (v : α) (rest : List (String × α)) (other : k ≠ key) :
    under key ((k, v) :: rest) = under key rest := by
  simp [under, other]

theorem under_eq_nil {key : String} {entries : List (String × α)} (absent : key ∉ keys entries) :
    under key entries = [] := by
  rw [under, List.map_eq_nil_iff, List.filter_eq_nil_iff]
  intro e member same
  exact absent (List.mem_map.mpr ⟨e, member, by simpa using same⟩)

theorem lookup_eq_head? (key : String) (entries : List (String × α)) :
    entries.lookup key = (under key entries).head? := by
  induction entries with
  | nil => rfl
  | cons e rest ih =>
    obtain ⟨k, v⟩ := e
    rw [lookup_cons_if]
    by_cases same : key = k
    · subst same
      rw [if_pos rfl, under_cons_self, List.head?_cons]
    · rw [if_neg same, under_cons_other _ _ (Ne.symm same), ih]

theorem lookup_eq_none {key : String} {entries : List (String × α)} (absent : key ∉ keys entries) :
    entries.lookup key = none := by
  rw [lookup_eq_head?, under_eq_nil absent, List.head?_nil]

theorem Sorted.lookup_tail {key k : String} {v : α} {rest : List (String × α)}
    (sorted : Sorted ((key, v) :: rest)) (below : k ≤ key) : rest.lookup k = none := by
  refine lookup_eq_none fun member => ?_
  exact absurd ((List.pairwise_cons.mp sorted).1 k member) (String.not_lt.mpr below)

theorem under_put {entries : List (String × α)} (sorted : Sorted entries) (key k : String)
    (value : α) :
    under k (put key value entries) = if key = k then [value] else under k entries := by
  induction entries with
  | nil => by_cases same : key = k <;> simp [put, under, same]
  | cons e rest ih =>
    obtain ⟨k', v⟩ := e
    obtain ⟨head, tail⟩ := List.pairwise_cons.mp sorted
    by_cases found : key = k'
    · subst found
      simp only [put, if_true]
      by_cases same : key = k
      · subst same
        have last : under key rest = [] :=
          under_eq_nil fun member => String.lt_irrefl _ (head _ member)
        rw [if_pos rfl, under_cons_self, last]
      · rw [if_neg same, under_cons_other _ _ same, under_cons_other _ _ same]
    · by_cases lt : key < k'
      · simp only [put, found, lt, if_true, if_false]
        by_cases same : key = k
        · subst same
          have beyond : under key ((k', v) :: rest) = [] := by
            refine under_eq_nil fun member => ?_
            rcases List.mem_cons.mp member with equal | later
            · exact found equal
            · exact String.lt_irrefl _ (String.lt_trans lt (head _ later))
          rw [if_pos rfl, under_cons_self, beyond]
        · rw [if_neg same, under_cons_other _ _ same]
      · simp only [put, found, lt, if_false]
        by_cases here : k' = k
        · subst here
          rw [under_cons_self, under_cons_self, ih tail, if_neg found, if_neg found]
        · rw [under_cons_other _ _ here, under_cons_other _ _ here, ih tail]

theorem under_ofList (key : String) (entries : List (String × α)) :
    under key (ofList entries) = (under key entries).getLast?.toList := by
  suffices ∀ acc : List (String × α), Sorted acc → (under key acc).length ≤ 1 →
      under key (entries.foldl (fun acc e => put e.1 e.2 acc) acc) =
        (under key acc ++ under key entries).getLast?.toList from
    this [] List.Pairwise.nil (Nat.zero_le _)
  induction entries with
  | nil =>
    intro acc _ few
    match found : under key acc with
    | [] | [_] => simp [under]
    | _ :: _ :: _ =>
      rw [found] at few
      simp at few
  | cons e rest ih =>
    obtain ⟨k, v⟩ := e
    intro acc sorted few
    have next : under key (put k v acc) = if k = key then [v] else under key acc :=
      under_put sorted k key v
    by_cases same : k = key
    · subst same
      rw [if_pos rfl] at next
      rw [List.foldl_cons, ih _ (sorted.put k v) (by simp [next]), next, under_cons_self]
      simp [List.getLast?_cons]
    · rw [if_neg same] at next
      rw [List.foldl_cons, ih _ (sorted.put k v) (by rwa [next]), next,
        under_cons_other _ _ same]

theorem length_under_of_nodup {entries : List (String × α)} (nodup : (keys entries).Nodup)
    (key : String) : (under key entries).length ≤ 1 := by
  induction entries with
  | nil => exact Nat.zero_le _
  | cons e rest ih =>
    obtain ⟨k, v⟩ := e
    obtain ⟨fresh, nodup⟩ := List.nodup_cons.mp nodup
    by_cases same : k = key
    · subst same
      rw [under_cons_self, under_eq_nil fresh]
      exact Nat.le_refl _
    · rw [under_cons_other _ _ same]
      exact ih nodup

theorem lookup_ofList {entries : List (String × α)} (nodup : (keys entries).Nodup) (key : String) :
    (ofList entries).lookup key = entries.lookup key := by
  have few := length_under_of_nodup nodup key
  rw [lookup_eq_head?, lookup_eq_head?, under_ofList]
  match found : under key entries with
  | [] | [_] => rfl
  | _ :: _ :: _ =>
    rw [found] at few
    simp at few

theorem keys_put_congr {entries entries' : List (String × α)} (same : keys entries = keys entries')
    (key : String) (v v' : α) : keys (put key v entries) = keys (put key v' entries') := by
  induction entries generalizing entries' with
  | nil =>
    obtain rfl := List.map_eq_nil_iff.mp same.symm
    rfl
  | cons e rest ih =>
    obtain ⟨e', rest', rfl, head, tail⟩ := List.map_eq_cons_iff.mp same.symm
    obtain ⟨k, w⟩ := e
    obtain ⟨k', w'⟩ := e'
    obtain rfl : k' = k := head
    simp only [put]
    split
    · exact congrArg (key :: ·) tail.symm
    · split
      · exact congrArg (key :: k' :: ·) tail.symm
      · exact congrArg (k' :: ·) (ih tail.symm)

theorem keys_ofList_congr {entries entries' : List (String × α)}
    (same : keys entries = keys entries') : keys (ofList entries) = keys (ofList entries') := by
  suffices ∀ acc acc' : List (String × α), keys acc = keys acc' →
      keys (entries.foldl (fun acc e => put e.1 e.2 acc) acc) =
        keys (entries'.foldl (fun acc e => put e.1 e.2 acc) acc') from this [] [] rfl
  induction entries generalizing entries' with
  | nil =>
    obtain rfl := List.map_eq_nil_iff.mp same.symm
    exact fun _ _ equal => equal
  | cons e rest ih =>
    obtain ⟨e', rest', rfl, head, tail⟩ := List.map_eq_cons_iff.mp same.symm
    obtain ⟨k, v⟩ := e
    obtain ⟨k', v'⟩ := e'
    obtain rfl : k' = k := head
    intro acc acc' equal
    exact ih tail.symm _ _ (keys_put_congr equal k' v v')

end Switchboard.Assoc
