/-! Entries under distinct keys, in the order in which the keys first came. -/
namespace ShapeTyping.Entries

variable {α : Type}

/-- Puts a value under a key: in place of the value there, or at the end. -/
def insert (key : String) (value : α) : List (String × α) → List (String × α)
  | [] => [(key, value)]
  | (k, v) :: rest => if k == key then (k, value) :: rest else (k, v) :: insert key value rest

/-- A repeated key keeps its first place and takes its last value. -/
def ofList (pairs : List (String × α)) : List (String × α) :=
  pairs.foldl (fun entries (k, v) => insert k v entries) []

theorem lookup_insert_self (key : String) (value : α) (entries : List (String × α)) :
    (insert key value entries).lookup key = some value := by
  induction entries with
  | nil => simp [insert]
  | cons entry rest ih =>
    obtain ⟨k, v⟩ := entry
    by_cases h : k = key
    · simp [insert, h]
    · have hne : (key == k) = false := by simp [Ne.symm h]
      simp [insert, h, List.lookup_cons, hne, ih]

theorem lookup_insert_of_ne {key other : String} (h : other ≠ key) (value : α)
    (entries : List (String × α)) :
    (insert key value entries).lookup other = entries.lookup other := by
  have hne : (other == key) = false := by simp [h]
  induction entries with
  | nil => simp [insert, List.lookup_cons, hne]
  | cons entry rest ih =>
    obtain ⟨k, v⟩ := entry
    by_cases hk : k = key
    · subst hk
      simp [insert, List.lookup_cons, hne]
    · simp [insert, hk, List.lookup_cons, ih]

theorem keys_insert (key : String) (value : α) (entries : List (String × α)) :
    (insert key value entries).map (·.1) =
      if key ∈ entries.map (·.1) then entries.map (·.1) else entries.map (·.1) ++ [key] := by
  induction entries with
  | nil => simp [insert]
  | cons entry rest ih =>
    obtain ⟨k, v⟩ := entry
    by_cases hk : k = key
    · simp [insert, hk]
    · simp only [insert, hk, beq_iff_eq, if_false, List.map_cons, ih, List.mem_cons,
        Ne.symm hk, false_or]
      split <;> rfl

theorem insert_of_notMem {key : String} (value : α) {entries : List (String × α)}
    (h : key ∉ entries.map (·.1)) : insert key value entries = entries ++ [(key, value)] := by
  induction entries with
  | nil => rfl
  | cons entry rest ih =>
    obtain ⟨k, v⟩ := entry
    rw [List.map_cons, List.mem_cons, not_or] at h
    rw [insert, if_neg (by simpa using Ne.symm h.1), ih h.2, List.cons_append]

/-- What is there already may be put in again. -/
theorem insert_of_lookup {key : String} {value : α} {entries : List (String × α)}
    (h : entries.lookup key = some value) : insert key value entries = entries := by
  induction entries with
  | nil => cases h
  | cons entry rest ih =>
    obtain ⟨k, v⟩ := entry
    by_cases hk : k = key
    · subst hk
      rw [List.lookup_cons, beq_self_eq_true] at h
      cases h
      simp [insert]
    · have hne : (key == k) = false := beq_eq_false_iff_ne.mpr (Ne.symm hk)
      rw [List.lookup_cons, hne] at h
      simp [insert, hk, ih h]

theorem mem_of_lookup {entries : List (String × α)} {key : String} {value : α}
    (h : entries.lookup key = some value) : (key, value) ∈ entries := by
  obtain ⟨before, after, rfl, -⟩ := List.lookup_eq_some_iff.mp h
  exact List.mem_append_right _ (List.mem_cons_self ..)

theorem lookup_eq_none_iff {entries : List (String × α)} {key : String} :
    entries.lookup key = none ↔ key ∉ entries.map (·.1) := by
  rw [List.lookup_eq_none_iff, List.mem_map]
  constructor
  · rintro h ⟨entry, hentry, rfl⟩
    simpa using h entry hentry
  · intro h entry hentry
    have hne : key ≠ entry.1 := fun hk => h ⟨entry, hentry, hk.symm⟩
    simpa using hne

theorem lookup_of_mem {entries : List (String × α)} (hd : (entries.map (·.1)).Nodup)
    {entry : String × α} (h : entry ∈ entries) : entries.lookup entry.1 = some entry.2 := by
  induction entries with
  | nil => cases h
  | cons first rest ih =>
    obtain ⟨k, v⟩ := first
    rw [List.map_cons, List.nodup_cons] at hd
    rcases List.mem_cons.mp h with rfl | hr
    · simp
    · have hne : entry.1 ≠ k := fun hk => hd.1 (List.mem_map.mpr ⟨entry, hr, hk⟩)
      rw [List.lookup_cons, beq_eq_false_iff_ne.mpr hne]
      exact ih hd.2 hr

/-- The order of entries under distinct keys does not matter to what is found. -/
theorem lookup_perm {entries entries' : List (String × α)} (h : entries.Perm entries')
    (hd : (entries.map (·.1)).Nodup) (key : String) :
    entries.lookup key = entries'.lookup key := by
  have hd' : (entries'.map (·.1)).Nodup := (h.map _).nodup_iff.mp hd
  apply Option.ext
  intro value
  constructor
  · intro hv
    exact lookup_of_mem hd' (h.mem_iff.mp (mem_of_lookup hv))
  · intro hv
    exact lookup_of_mem hd (h.mem_iff.mpr (mem_of_lookup hv))

end ShapeTyping.Entries
