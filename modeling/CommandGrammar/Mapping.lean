/-!
# Mappings

Values by text keys, in the order in which the keys arrived. A key that is written again keeps
its place and takes the new value. Main statements: `get?_insert` and `get?_merge` say what is
found under a key after writing, and `keys_insert` says in which order the keys stand.
-/

namespace CommandGrammar

/-- Values by distinct keys. -/
structure Mapping (α : Type) where
  entries : List (String × α)
  distinct : (entries.map (·.1)).Nodup

namespace Mapping

variable {α : Type}

/-- Entries with one more, in the place of an entry with the same key. -/
def insertEntry (key : String) (a : α) : List (String × α) → List (String × α)
  | [] => [(key, a)]
  | (key', a') :: rest =>
    if key' = key then (key, a) :: rest else (key', a') :: insertEntry key a rest

theorem mem_keys_insertEntry {key key' : String} {a : α} {entries : List (String × α)} :
    key' ∈ (insertEntry key a entries).map (·.1) ↔ key' = key ∨ key' ∈ entries.map (·.1) := by
  induction entries with
  | nil => simp [insertEntry]
  | cons e rest ih => grind [insertEntry]

theorem keys_insertEntry (key : String) (a : α) (entries : List (String × α)) :
    (insertEntry key a entries).map (·.1) =
      if key ∈ entries.map (·.1) then entries.map (·.1) else entries.map (·.1) ++ [key] := by
  induction entries with
  | nil => simp [insertEntry]
  | cons e rest ih => grind [insertEntry]

/-- Keys stay distinct. -/
theorem distinct_insertEntry (key : String) (a : α) {entries : List (String × α)}
    (h : (entries.map (·.1)).Nodup) : ((insertEntry key a entries).map (·.1)).Nodup := by
  induction entries with
  | nil => simp [insertEntry]
  | cons e rest ih =>
    obtain ⟨head, tail⟩ := List.nodup_cons.1 h
    by_cases he : e.1 = key
    · rw [insertEntry, if_pos he]
      exact List.nodup_cons.2 ⟨he ▸ head, tail⟩
    · rw [insertEntry, if_neg he]
      refine List.nodup_cons.2 ⟨fun hm => ?_, ih tail⟩
      exact (mem_keys_insertEntry.1 hm).elim he head

/-- The mapping without keys. -/
def empty : Mapping α := ⟨[], List.nodup_nil⟩

/-- The mapping with a value written under a key. -/
def insert (m : Mapping α) (key : String) (a : α) : Mapping α :=
  ⟨insertEntry key a m.entries, distinct_insertEntry key a m.distinct⟩

/-- The value under a key. -/
def get? (m : Mapping α) (key : String) : Option α := m.entries.lookup key

/-- Whether there is a value under a key. -/
def contains (m : Mapping α) (key : String) : Bool := (m.get? key).isSome

/-- The keys in the order of their arrival. -/
def keys (m : Mapping α) : List String := m.entries.map (·.1)

/-- How many keys there are. -/
def size (m : Mapping α) : Nat := m.entries.length

/-- The mapping with all entries written into it, one after the other. -/
def insertAll (m : Mapping α) (entries : List (String × α)) : Mapping α :=
  entries.foldl (fun m (key, a) => m.insert key a) m

/-- The first mapping with all the entries of the second written into it. -/
def merge (m n : Mapping α) : Mapping α := m.insertAll n.entries

/-- The mapping of the given entries, of which later ones win. -/
def ofList (entries : List (String × α)) : Mapping α := empty.insertAll entries

/-- Writing a key is seen under that key and under no other. -/
theorem lookup_insertEntry (key : String) (a : α) (entries : List (String × α)) (key' : String) :
    (insertEntry key a entries).lookup key' =
      if key' = key then some a else entries.lookup key' := by
  induction entries with
  | nil => grind [insertEntry]
  | cons e rest ih => grind [insertEntry]

theorem lookup_eq_none {key : String} {entries : List (String × α)}
    (h : key ∉ entries.map (·.1)) : entries.lookup key = none := by
  induction entries with
  | nil => rfl
  | cons e rest ih => grind

theorem exists_get?_of_mem {m : Mapping α} {key : String} (mem : key ∈ m.keys) :
    ∃ a, m.get? key = some a := by
  obtain ⟨e, he, rfl⟩ := List.mem_map.1 mem
  cases found : m.get? e.1 with
  | some a => exact ⟨a, rfl⟩
  | none => exact absurd rfl (bne_iff_ne.1 (List.lookup_eq_none_iff.1 found e he))

@[simp] theorem get?_empty (key : String) : (empty : Mapping α).get? key = none := rfl

@[simp] theorem get?_insert (m : Mapping α) (key : String) (a : α) (key' : String) :
    (m.insert key a).get? key' = if key' = key then some a else m.get? key' :=
  lookup_insertEntry key a m.entries key'

theorem mem_keys_insert {m : Mapping α} {key key' : String} {a : α} :
    key' ∈ (m.insert key a).keys ↔ key' = key ∨ key' ∈ m.keys :=
  mem_keys_insertEntry

/-- A key that is there keeps its place, and a new one comes last. -/
theorem keys_insert (m : Mapping α) (key : String) (a : α) :
    (m.insert key a).keys = if key ∈ m.keys then m.keys else m.keys ++ [key] :=
  keys_insertEntry key a m.entries

theorem get?_insertAll (m : Mapping α) {entries : List (String × α)}
    (h : (entries.map (·.1)).Nodup) (key : String) :
    (m.insertAll entries).get? key = (entries.lookup key).or (m.get? key) := by
  induction entries generalizing m with
  | nil => rfl
  | cons e rest ih =>
    obtain ⟨key', a⟩ := e
    obtain ⟨head, tail⟩ := List.nodup_cons.1 h
    have step : m.insertAll ((key', a) :: rest) = (m.insert key' a).insertAll rest := rfl
    rw [step, ih _ tail, get?_insert, List.lookup_cons]
    by_cases hk : key = key'
    · subst hk
      simp [lookup_eq_none head]
    · have hb : (key == key') = false := by simpa using hk
      simp [hk, hb]

/-- The entries of the second mapping win. -/
@[simp] theorem get?_merge (m n : Mapping α) (key : String) :
    (m.merge n).get? key = (n.get? key).or (m.get? key) :=
  get?_insertAll m n.distinct key

theorem insertAll_cons (m : Mapping α) (e : String × α) (rest : List (String × α)) :
    m.insertAll (e :: rest) = (m.insert e.1 e.2).insertAll rest := rfl

theorem insertAll_append (m : Mapping α) (entries others : List (String × α)) :
    m.insertAll (entries ++ others) = (m.insertAll entries).insertAll others :=
  List.foldl_append

theorem mem_keys_insertAll {m : Mapping α} {entries : List (String × α)} {key : String} :
    key ∈ (m.insertAll entries).keys ↔ key ∈ m.keys ∨ key ∈ entries.map (·.1) := by
  induction entries generalizing m with
  | nil => simp [insertAll]
  | cons e rest ih =>
    rw [insertAll_cons, ih, mem_keys_insert, List.map_cons, List.mem_cons]
    constructor
    · rintro ((h | h) | h)
      · exact .inr (.inl h)
      · exact .inl h
      · exact .inr (.inr h)
    · rintro (h | h | h)
      · exact .inl (.inr h)
      · exact .inl (.inl h)
      · exact .inr h

/-- What is found after writing was there before or is written. -/
theorem mem_of_get?_insertAll {m : Mapping α} {entries : List (String × α)} {key : String} {a : α}
    (h : (m.insertAll entries).get? key = some a) : m.get? key = some a ∨ (key, a) ∈ entries := by
  induction entries generalizing m with
  | nil => exact .inl h
  | cons e rest ih =>
    rw [insertAll_cons] at h
    rcases ih h with h | h
    · rw [get?_insert] at h
      split at h
      · rename_i hkey
        cases h
        subst hkey
        exact .inr List.mem_cons_self
      · exact .inl h
    · exact .inr (List.mem_cons_of_mem _ h)

/-- In which order the keys stand does not depend on the values. -/
theorem keys_insertAll_congr {m n : Mapping α} {entries others : List (String × α)}
    (hkeys : m.keys = n.keys) (h : entries.map (·.1) = others.map (·.1)) :
    (m.insertAll entries).keys = (n.insertAll others).keys := by
  induction entries generalizing m n others with
  | nil =>
    rw [List.map_nil, eq_comm, List.map_eq_nil_iff] at h
    rw [h]
    exact hkeys
  | cons e rest ih =>
    cases others with
    | nil => simp at h
    | cons e' rest' =>
      obtain ⟨hkey, hrest⟩ := List.cons.inj h
      dsimp only at hkey
      rw [insertAll_cons, insertAll_cons]
      refine ih ?_ hrest
      rw [keys_insert, keys_insert, hkeys, hkey]

theorem entries_eq_of_lookup {entries others : List (String × α)}
    (hkeys : entries.map (·.1) = others.map (·.1)) (distinct : (entries.map (·.1)).Nodup)
    (hlookup : ∀ key, entries.lookup key = others.lookup key) : entries = others := by
  induction entries generalizing others with
  | nil =>
    rw [List.map_nil, eq_comm, List.map_eq_nil_iff] at hkeys
    exact hkeys.symm
  | cons e rest ih =>
    cases others with
    | nil => simp at hkeys
    | cons e' rest' =>
      obtain ⟨key, a⟩ := e
      obtain ⟨key', a'⟩ := e'
      obtain ⟨hkey, hrest⟩ := List.cons.inj hkeys
      obtain ⟨head, tail⟩ := List.nodup_cons.1 distinct
      dsimp only at hkey head
      subst hkey
      have ha : a = a' := by simpa using hlookup key
      subst ha
      have hothers : ∀ other, rest.lookup other = rest'.lookup other := by
        intro other
        by_cases h : other = key
        · subst h
          rw [lookup_eq_none head, lookup_eq_none (hrest ▸ head)]
        · have hne : (other == key) = false := by simpa using h
          simpa [List.lookup_cons, hne] using hlookup other
      rw [ih hrest tail hothers]

/-- A mapping is known by the order of its keys and by what is found under them. -/
theorem eq_of_get? {m n : Mapping α} (hkeys : m.keys = n.keys)
    (hget : ∀ key, m.get? key = n.get? key) : m = n := by
  have h := entries_eq_of_lookup hkeys m.distinct hget
  cases m
  cases n
  simpa using h

theorem merge_insert (m n : Mapping α) (key : String) (a : α) :
    m.merge (n.insert key a) = (m.merge n).insert key a := by
  refine eq_of_get? ?_ fun key' => ?_
  · rw [keys_insert]
    by_cases h : key ∈ n.entries.map (·.1)
    · have hmem : key ∈ (m.merge n).keys := mem_keys_insertAll.2 (.inr h)
      have hkeys : (insertEntry key a n.entries).map (·.1) = n.entries.map (·.1) := by
        rw [keys_insertEntry, if_pos h]
      rw [if_pos hmem]
      exact keys_insertAll_congr rfl hkeys
    · have hkeys : (insertEntry key a n.entries).map (·.1) =
          (n.entries ++ [(key, a)]).map (·.1) := by
        rw [keys_insertEntry, if_neg h, List.map_append]
        rfl
      rw [merge, insert, keys_insertAll_congr rfl hkeys, insertAll_append]
      exact keys_insert (m.merge n) key a
  · rw [get?_merge, get?_insert, get?_insert, get?_merge]
    by_cases h : key' = key
    · rw [if_pos h, if_pos h, Option.some_or]
    · rw [if_neg h, if_neg h]

theorem merge_insertAll (m n : Mapping α) (entries : List (String × α)) :
    m.merge (n.insertAll entries) = (m.merge n).insertAll entries := by
  induction entries generalizing n with
  | nil => rfl
  | cons e rest ih =>
    rw [insertAll_cons, insertAll_cons, ih, merge_insert]

/-- Merging what was written into an empty mapping is writing it. -/
theorem merge_ofList (m : Mapping α) (entries : List (String × α)) :
    m.merge (ofList entries) = m.insertAll entries :=
  merge_insertAll m empty entries

/-- What was written last is found, and where nothing was written, what was there before. -/
theorem get?_insertAll_ofList (m : Mapping α) (entries : List (String × α)) (key : String) :
    (m.insertAll entries).get? key = ((ofList entries).get? key).or (m.get? key) := by
  rw [← merge_ofList, get?_merge]

theorem get?_ofList_eq_none {entries : List (String × α)} {key : String}
    (fresh : ∀ e ∈ entries, e.1 ≠ key) : (ofList entries).get? key = none := by
  cases found : (ofList entries).get? key with
  | none => rfl
  | some a =>
    rcases mem_of_get?_insertAll found with before | mem
    · cases before
    · exact absurd rfl (fresh _ mem)

/-- Entries under different keys can be written in any order. -/
theorem get?_insertAll_comm (m : Mapping α) {xs ys : List (String × α)}
    (apart : ∀ x ∈ xs, ∀ y ∈ ys, x.1 ≠ y.1) (entries : List (String × α)) (key : String) :
    (m.insertAll (xs ++ (ys ++ entries))).get? key =
      (m.insertAll (ys ++ (xs ++ entries))).get? key := by
  simp only [insertAll_append, get?_insertAll_ofList]
  by_cases shared : ∃ x ∈ xs, x.1 = key
  · obtain ⟨x, mem, rfl⟩ := shared
    simp [get?_ofList_eq_none fun y mem' => (apart x mem y mem').symm]
  · have fresh : ∀ x ∈ xs, x.1 ≠ key := fun x mem same => shared ⟨x, mem, same⟩
    simp [get?_ofList_eq_none fresh]

end Mapping

end CommandGrammar
