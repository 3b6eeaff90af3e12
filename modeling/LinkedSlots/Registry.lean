namespace LinkedSlots

/-- Entries under distinct keys, kept in ascending order of the keys. -/
structure Registry (κ β : Type) where
  entries : List (κ × β)

namespace Registry

variable {κ β : Type}

def empty : Registry κ β := ⟨[]⟩

section Lookup

variable [DecidableEq κ]

def lookup (key : κ) : List (κ × β) → Option β
  | [] => none
  | (other, entry) :: rest => if key = other then some entry else lookup key rest

def find? (r : Registry κ β) (key : κ) : Option β := lookup key r.entries

def eraseEntry (key : κ) : List (κ × β) → List (κ × β)
  | [] => []
  | (other, entry) :: rest =>
    if key = other then eraseEntry key rest else (other, entry) :: eraseEntry key rest

def erase (r : Registry κ β) (key : κ) : Registry κ β := ⟨eraseEntry key r.entries⟩

@[simp] theorem find?_empty (key : κ) : (empty : Registry κ β).find? key = none := rfl

theorem find?_erase_self (r : Registry κ β) (key : κ) : (r.erase key).find? key = none := by
  obtain ⟨entries⟩ := r
  simp only [find?, erase]
  induction entries with
  | nil => rfl
  | cons pair rest ih =>
    obtain ⟨other, kept⟩ := pair
    simp only [eraseEntry]
    split
    · exact ih
    · simp [lookup, *]

theorem find?_erase_of_ne (r : Registry κ β) {key other : κ} (ne : other ≠ key) :
    (r.erase key).find? other = r.find? other := by
  obtain ⟨entries⟩ := r
  simp only [find?, erase]
  induction entries with
  | nil => rfl
  | cons pair rest ih =>
    obtain ⟨name, kept⟩ := pair
    simp only [eraseEntry]
    split
    · next same => subst same; simpa [lookup, ne] using ih
    · simp [lookup, ih]

end Lookup

variable [DecidableEq κ] [LT κ] [DecidableLT κ]

def putEntry (key : κ) (entry : β) : List (κ × β) → List (κ × β)
  | [] => [(key, entry)]
  | (other, kept) :: rest =>
    if key = other then (key, entry) :: rest
    else if key < other then (key, entry) :: (other, kept) :: rest
    else (other, kept) :: putEntry key entry rest

def put (r : Registry κ β) (key : κ) (entry : β) : Registry κ β := ⟨putEntry key entry r.entries⟩

theorem find?_put_self (r : Registry κ β) (key : κ) (entry : β) :
    (r.put key entry).find? key = some entry := by
  obtain ⟨entries⟩ := r
  simp only [find?, put]
  induction entries with
  | nil => simp [putEntry, lookup]
  | cons pair rest ih =>
    obtain ⟨other, kept⟩ := pair
    simp only [putEntry]
    split
    · simp [lookup]
    · split
      · simp [lookup]
      · simp [lookup, *]

theorem find?_put_of_ne (r : Registry κ β) {key other : κ} (entry : β) (ne : other ≠ key) :
    (r.put key entry).find? other = r.find? other := by
  obtain ⟨entries⟩ := r
  simp only [find?, put]
  induction entries with
  | nil => simp [putEntry, lookup, ne]
  | cons pair rest ih =>
    obtain ⟨name, kept⟩ := pair
    simp only [putEntry]
    split
    · next same => subst same; simp [lookup, ne]
    · split
      · simp [lookup, ne]
      · simp [lookup, ih]

theorem put_put (r : Registry κ β) (key : κ) (entry later : β) :
    (r.put key entry).put key later = r.put key later := by
  obtain ⟨entries⟩ := r
  simp only [put]
  congr 1
  induction entries with
  | nil => simp [putEntry]
  | cons pair rest ih =>
    obtain ⟨other, kept⟩ := pair
    by_cases same : key = other
    · simp [putEntry, same]
    · by_cases before : key < other
      · simp [putEntry, same, before]
      · simp [putEntry, same, before, ih]

theorem find?_put_same {r : Registry κ β} {key : κ} {entry : β} (found : r.find? key = some entry)
    (other : κ) : (r.put key entry).find? other = r.find? other := by
  by_cases same : other = key
  · rw [same, r.find?_put_self key entry, found]
  · exact r.find?_put_of_ne entry same

theorem find?_put_absent {r : Registry κ β} {key other : κ} {old : β}
    (absent : r.find? other = none) (found : r.find? key = some old) (entry : β) :
    (r.put key entry).find? other = none := by
  have ne : other ≠ key := by
    rintro rfl
    cases absent.symm.trans found
  exact (r.find?_put_of_ne entry ne).trans absent

end Registry

end LinkedSlots
