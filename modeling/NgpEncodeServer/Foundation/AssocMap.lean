import Mathlib.Data.List.Nodup

/-!
# Finite maps as association lists with unique keys

`AssocMap κ α` is the list of the entries of a finite map; the absence of a second entry under the
same key is a field of the structure.  The operations are those of an ordered map container:
`contains`, `at?`, an `insert` that leaves the map alone when the key is present, and `eraseIf`,
of which `erase` is the case of one key.  The order of the entries is not observable.
-/

namespace Ngp

/-- A finite map with keys `κ` and values `α`. -/
structure AssocMap (κ α : Type*) where
  /-- The entries, in no particular order. -/
  entries : List (κ × α)
  /-- No key has two entries. -/
  nodup : (entries.map Prod.fst).Nodup

namespace AssocMap

variable {κ α : Type*}

/-- The map without entries. -/
def empty : AssocMap κ α := ⟨[], List.nodup_nil⟩

/-- The number of entries. -/
def size (m : AssocMap κ α) : ℕ := m.entries.length

/-- The keys that have an entry. -/
def keys (m : AssocMap κ α) : List κ := m.entries.map Prod.fst

/-- The values stored. -/
def values (m : AssocMap κ α) : List α := m.entries.map Prod.snd

@[simp] theorem entries_empty : (empty : AssocMap κ α).entries = [] := rfl

@[simp] theorem size_empty : (empty : AssocMap κ α).size = 0 := rfl

/-- Erase the entries that satisfy `p`. -/
def eraseIf (m : AssocMap κ α) (p : κ × α → Bool) : AssocMap κ α where
  entries := m.entries.filter fun e => !p e
  nodup := m.nodup.sublist (List.filter_sublist.map Prod.fst)

@[simp] theorem entries_eraseIf (m : AssocMap κ α) (p : κ × α → Bool) :
    (m.eraseIf p).entries = m.entries.filter fun e => !p e := rfl

/-- Erasing entries does not make the map larger. -/
theorem size_eraseIf_le (m : AssocMap κ α) (p : κ × α → Bool) : (m.eraseIf p).size ≤ m.size :=
  List.length_filter_le _ _

/-- An entry is determined by its key. -/
theorem value_unique (m : AssocMap κ α) {k : κ} {v w : α} (hv : (k, v) ∈ m.entries)
    (hw : (k, w) ∈ m.entries) : v = w := by
  have h : (k, v) = (k, w) := List.inj_on_of_nodup_map m.nodup hv hw rfl
  exact congrArg Prod.snd h

variable [DecidableEq κ]

/-- Whether the key has an entry. -/
def contains (m : AssocMap κ α) (k : κ) : Bool := m.entries.any fun e => e.1 = k

/-- The value stored under a key. -/
def at? (m : AssocMap κ α) (k : κ) : Option α :=
  (m.entries.find? fun e => e.1 = k).map Prod.snd

/-- Erase the entry of one key. -/
def erase (m : AssocMap κ α) (k : κ) : AssocMap κ α := m.eraseIf fun e => e.1 = k

theorem contains_iff {m : AssocMap κ α} {k : κ} : m.contains k = true ↔ k ∈ m.keys := by
  simp [contains, keys]

theorem not_contains_iff {m : AssocMap κ α} {k : κ} : m.contains k = false ↔ k ∉ m.keys := by
  rw [← contains_iff, Bool.not_eq_true]

/-- Insert an entry unless its key is present; a declined value is not stored anywhere. -/
def insert (m : AssocMap κ α) (k : κ) (v : α) : AssocMap κ α :=
  if h : m.contains k = false then
    ⟨(k, v) :: m.entries, List.nodup_cons.mpr ⟨not_contains_iff.mp h, m.nodup⟩⟩
  else m

theorem at?_eq_some_iff {m : AssocMap κ α} {k : κ} {v : α} :
    m.at? k = some v ↔ (k, v) ∈ m.entries := by
  rw [at?, Option.map_eq_some_iff]
  constructor
  · rintro ⟨⟨k', v'⟩, hfind, rfl⟩
    have hk : k' = k := by simpa using List.find?_some hfind
    exact hk ▸ List.mem_of_find?_eq_some hfind
  · intro hmem
    obtain ⟨e, hfind⟩ : ∃ e, (m.entries.find? fun e => e.1 = k) = some e := by
      rw [← Option.isSome_iff_exists, List.find?_isSome]
      exact ⟨_, hmem, by simp⟩
    obtain ⟨k', v'⟩ := e
    have hk : k' = k := by simpa using List.find?_some hfind
    subst hk
    exact ⟨_, hfind, m.value_unique (List.mem_of_find?_eq_some hfind) hmem⟩

theorem at?_eq_none_iff {m : AssocMap κ α} {k : κ} : m.at? k = none ↔ k ∉ m.keys := by
  rw [at?, Option.map_eq_none_iff, List.find?_eq_none]
  constructor
  · intro h hk
    obtain ⟨e, he, rfl⟩ := List.mem_map.mp hk
    simpa using h e he
  · intro h e he
    have hne : e.1 ≠ k := fun hk => h (hk ▸ List.mem_map.mpr ⟨e, he, rfl⟩)
    simpa using hne

/-- Inserting under a key that is present changes nothing. -/
theorem insert_of_mem {m : AssocMap κ α} {k : κ} (v : α) (h : k ∈ m.keys) : m.insert k v = m := by
  simp [insert, contains_iff.mpr h]

/-- Inserting under a new key adds one entry. -/
theorem entries_insert_of_notMem {m : AssocMap κ α} {k : κ} (v : α) (h : k ∉ m.keys) :
    (m.insert k v).entries = (k, v) :: m.entries := by
  simp [insert, not_contains_iff.mpr h]

/-- The entries after an insertion are the old ones and possibly the new one. -/
theorem mem_entries_insert {m : AssocMap κ α} {k : κ} {v : α} {e : κ × α}
    (h : e ∈ (m.insert k v).entries) : e = (k, v) ∨ e ∈ m.entries := by
  by_cases hk : k ∈ m.keys
  · rw [insert_of_mem v hk] at h
    exact Or.inr h
  · rw [entries_insert_of_notMem v hk] at h
    exact List.mem_cons.mp h

/-- An insertion keeps the entries that are there. -/
theorem mem_entries_insert_of_mem {m : AssocMap κ α} {e : κ × α} (k : κ) (v : α)
    (h : e ∈ m.entries) : e ∈ (m.insert k v).entries := by
  by_cases hk : k ∈ m.keys
  · rwa [insert_of_mem v hk]
  · rw [entries_insert_of_notMem v hk]
    exact List.mem_cons_of_mem _ h

/-- One insertion adds at most one entry. -/
theorem size_insert_le (m : AssocMap κ α) (k : κ) (v : α) : (m.insert k v).size ≤ m.size + 1 := by
  by_cases hk : k ∈ m.keys
  · rw [insert_of_mem v hk]
    omega
  · rw [size, entries_insert_of_notMem v hk, List.length_cons]
    exact Nat.le_refl _

/-- An insertion adds at most one to the count of any kind of entry, and only if the new entry is
of that kind. -/
theorem countP_insert_le (m : AssocMap κ α) (p : κ × α → Bool) (k : κ) (v : α) :
    (m.insert k v).entries.countP p ≤ m.entries.countP p + if p (k, v) then 1 else 0 := by
  by_cases hk : k ∈ m.keys
  · rw [insert_of_mem v hk]
    omega
  · exact Nat.le_of_eq (by rw [entries_insert_of_notMem v hk, List.countP_cons])

theorem mem_entries_erase {m : AssocMap κ α} {k : κ} {e : κ × α} :
    e ∈ (m.erase k).entries ↔ e ∈ m.entries ∧ e.1 ≠ k := by
  simp [erase]

/-- Erasing the key of an entry removes that entry from the count of its kind and no other. -/
theorem countP_erase_add (m : AssocMap κ α) (p : κ × α → Bool) {k : κ} {v : α}
    (h : (k, v) ∈ m.entries) :
    (m.erase k).entries.countP p + (if p (k, v) then 1 else 0) = m.entries.countP p := by
  obtain ⟨entries, hnd⟩ := m
  simp only [erase, entries_eraseIf] at h ⊢
  induction entries with
  | nil => simp at h
  | cons e rest ih =>
    obtain ⟨k', v'⟩ := e
    rw [List.map_cons, List.nodup_cons] at hnd
    rcases List.mem_cons.mp h with heq | hrest
    · obtain ⟨rfl, rfl⟩ := Prod.mk.inj heq
      have hfilter : rest.filter (fun e => !decide (e.1 = k)) = rest := by
        refine List.filter_eq_self.mpr fun e he => ?_
        have hne : e.1 ≠ k := fun hk => hnd.1 (hk ▸ List.mem_map.mpr ⟨e, he, rfl⟩)
        simpa using hne
      simp [hfilter, List.countP_cons]
    · have hne : k' ≠ k := fun hk => hnd.1 (hk ▸ List.mem_map.mpr ⟨_, hrest, rfl⟩)
      have := ih hnd.2 hrest
      simp only [hne, decide_false, Bool.not_false, List.filter_cons_of_pos, List.countP_cons]
      omega

/-- The entries are the entry of a key that is present and those left when the key is erased. -/
theorem perm_cons_entries_erase (m : AssocMap κ α) {k : κ} {v : α} (h : (k, v) ∈ m.entries) :
    m.entries.Perm ((k, v) :: (m.erase k).entries) := by
  classical
  refine List.perm_iff_count.mpr fun e => ?_
  have herase := m.countP_erase_add (fun x => x == e) h
  simp only [List.count_eq_countP, List.countP_cons]
  exact herase.symm

/-- Erasing a key that is present takes one away from the count of that key and of no other. -/
theorem count_keys_erase_add {m : AssocMap κ α} {k : κ} (h : k ∈ m.keys) (j : κ) :
    (m.erase k).keys.count j + [k].count j = m.keys.count j := by
  obtain ⟨⟨k', v⟩, hmem, rfl⟩ := List.mem_map.mp h
  have hcount : ∀ m' : AssocMap κ α, m'.keys.count j = m'.entries.countP fun e => e.1 = j := by
    intro m'
    rw [keys, List.count_eq_countP, List.countP_map]
    exact List.countP_congr fun e _ => by simp
  have herase := m.countP_erase_add (fun e => e.1 = j) hmem
  rw [hcount, hcount, ← herase, List.count_singleton]
  simp

/-- A new key adds one to the count of that key and of no other. -/
theorem count_keys_insert {m : AssocMap κ α} {k : κ} (v : α) (h : k ∉ m.keys) (j : κ) :
    (m.insert k v).keys.count j = m.keys.count j + [k].count j := by
  rw [keys, entries_insert_of_notMem v h, List.map_cons, ← List.singleton_append,
    List.count_append, Nat.add_comm]
  rfl

end AssocMap

end Ngp
