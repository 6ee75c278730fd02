/-!
# `MemStream.Session.Table` — values by name

A small table from names to values, in which every name occurs at most once.

## Contents
- **Tables.** `Table` with `find?`, `insert`, `erase`, and `names`.
- **Laws.** Looking up after an insertion or a removal, for the same name and for another.
- **Names.** Insertion and removal keep names apart, and with names apart the entries are what can be looked up.
-/

namespace MemStream

/-- Values by name, as a list of `entries`. -/
structure Table (κ ν : Type) where
  entries : List (κ × ν)
  deriving DecidableEq

namespace Table

variable {κ ν : Type}

/-- The table without `entries`. -/
def empty : Table κ ν := ⟨[]⟩

/-- The names in use, in the order of the `entries`. -/
def names (t : Table κ ν) : List κ :=
  t.entries.map (·.1)

/-- The values in use, in the order of the `entries`. -/
def values (t : Table κ ν) : List ν :=
  t.entries.map (·.2)

variable [DecidableEq κ]

/-- The value under `name`. -/
def find? (t : Table κ ν) (name : κ) : Option ν :=
  (t.entries.find? fun entry => decide (entry.1 = name)).map (·.2)

/-- The table without `name`. -/
def erase (t : Table κ ν) (name : κ) : Table κ ν :=
  ⟨t.entries.filter fun entry => decide (entry.1 ≠ name)⟩

/-- The table with `value` under `name`, in place of any that was there. -/
def insert (t : Table κ ν) (name : κ) (value : ν) : Table κ ν :=
  ⟨(name, value) :: (t.erase name).entries⟩

@[simp] theorem find?_empty (name : κ) : (empty : Table κ ν).find? name = none := rfl

@[simp] theorem find?_erase_self (t : Table κ ν) (name : κ) : (t.erase name).find? name = none := by
  simp [find?, erase]

@[simp] theorem find?_erase_of_ne (t : Table κ ν) {name other : κ} (h : other ≠ name) :
    (t.erase name).find? other = t.find? other := by
  simp only [find?, erase, List.find?_filter]
  congr 2
  funext entry
  by_cases he : entry.1 = other <;> simp_all

@[simp] theorem find?_insert_self (t : Table κ ν) (name : κ) (value : ν) :
    (t.insert name value).find? name = some value := by
  simp [find?, insert]

@[simp] theorem find?_insert_of_ne (t : Table κ ν) {name other : κ} (h : other ≠ name) (value : ν) :
    (t.insert name value).find? other = t.find? other := by
  rw [← find?_erase_of_ne t h]
  simp [find?, insert, h.symm]

/-- To `insert` a value where it is already changes no look-up. -/
theorem find?_insert_of_find? {t : Table κ ν} {name : κ} {value : ν} (h : t.find? name = some value) (other : κ) :
    (t.insert name value).find? other = t.find? other := by
  by_cases heq : other = name
  · rw [heq, find?_insert_self, h]
  · rw [find?_insert_of_ne t heq]

/-- What `find?` comes up with after `insert` was inserted or was there before. -/
theorem find?_insert_eq_some {t : Table κ ν} {name other : κ} {value found : ν}
    (h : (t.insert name value).find? other = some found) :
    (other = name ∧ found = value) ∨ (other ≠ name ∧ t.find? other = some found) := by
  by_cases heq : other = name
  · rw [heq, find?_insert_self] at h
    exact .inl ⟨heq, (Option.some.inj h).symm⟩
  · rw [find?_insert_of_ne t heq] at h
    exact .inr ⟨heq, h⟩

/-- What `find?` comes up with after `erase` was there before. -/
theorem find?_of_find?_erase {t : Table κ ν} {name other : κ} {found : ν}
    (h : (t.erase name).find? other = some found) : t.find? other = some found := by
  by_cases heq : other = name
  · rw [heq, find?_erase_self] at h
    cases h
  · rwa [find?_erase_of_ne t heq] at h

/-! ## Names -/

/-- What `find?` comes up with is one of the `entries`. -/
theorem mem_entries_of_find? {t : Table κ ν} {name : κ} {value : ν} (h : t.find? name = some value) :
    (name, value) ∈ t.entries := by
  obtain ⟨entry, hentry, rfl⟩ := Option.map_eq_some_iff.mp h
  have hname : entry.1 = name := by simpa using List.find?_some hentry
  rw [← hname]
  exact List.mem_of_find?_eq_some hentry

/-- Where `names` are apart, every one of the `entries` can be looked up. -/
theorem find?_of_mem_entries {t : Table κ ν} (hnames : t.names.Nodup) {name : κ} {value : ν}
    (h : (name, value) ∈ t.entries) : t.find? name = some value := by
  obtain ⟨entries⟩ := t
  induction entries with
  | nil => cases h
  | cons entry entries ih =>
      obtain ⟨hfresh, hrest⟩ := List.nodup_cons.mp hnames
      rcases List.mem_cons.mp h with rfl | h
      · simp [find?]
      · have hne : entry.1 ≠ name := by
          rintro rfl
          exact hfresh (List.mem_map_of_mem (f := (·.1)) h)
        have hlater := ih hrest h
        simpa [find?, hne] using hlater

/-- Where `names` are apart, the `values` are what `find?` comes up with. -/
theorem mem_values_iff {t : Table κ ν} (hnames : t.names.Nodup) {value : ν} :
    value ∈ t.values ↔ ∃ name, t.find? name = some value := by
  constructor
  · intro h
    obtain ⟨⟨name, _⟩, hentry, rfl⟩ := List.mem_map.mp h
    exact ⟨name, find?_of_mem_entries hnames hentry⟩
  · rintro ⟨name, hfind⟩
    exact List.mem_map_of_mem (f := (·.2)) (mem_entries_of_find? hfind)

/-- By `erase`, one of the `names` is lost and no other. -/
theorem mem_names_erase {t : Table κ ν} {name other : κ} : other ∈ (t.erase name).names ↔ other ∈ t.names ∧ other ≠ name := by
  simp only [names, erase, List.mem_map, List.mem_filter, decide_eq_true_eq]
  constructor
  · rintro ⟨entry, ⟨hentry, hne⟩, rfl⟩
    exact ⟨⟨entry, hentry, rfl⟩, hne⟩
  · rintro ⟨⟨entry, hentry, rfl⟩, hne⟩
    exact ⟨entry, ⟨hentry, hne⟩, rfl⟩

theorem nodup_names_erase {t : Table κ ν} (h : t.names.Nodup) (name : κ) : (t.erase name).names.Nodup :=
  h.sublist (List.filter_sublist.map _)

theorem nodup_names_insert {t : Table κ ν} (h : t.names.Nodup) (name : κ) (value : ν) :
    (t.insert name value).names.Nodup := by
  refine List.nodup_cons.mpr ⟨?_, nodup_names_erase h name⟩
  intro hmem
  exact (mem_names_erase.mp hmem).2 rfl

end Table

end MemStream
