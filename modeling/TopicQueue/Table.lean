namespace TopicQueue

abbrev Table (κ α : Type) := List (κ × α)

namespace Table

variable {κ α : Type} [DecidableEq κ]

def look : Table κ α → κ → Option α
  | [], _ => none
  | (k', v) :: rest, k => if k = k' then some v else look rest k

/-- Replaces the value of a key in its place, or adds the key at the end. -/
def put : Table κ α → κ → α → Table κ α
  | [], k, v => [(k, v)]
  | (k', v') :: rest, k, v => if k = k' then (k, v) :: rest else (k', v') :: put rest k v

def remove (t : Table κ α) (k : κ) : Table κ α := t.filter fun p => k ≠ p.1

@[simp] theorem look_put_self (t : Table κ α) (k : κ) (v : α) : look (put t k v) k = some v := by
  induction t with
  | nil => simp [put, look]
  | cons p t ih =>
    by_cases h : k = p.1
    · simp [put, look, h]
    · simp [put, look, h, ih]

theorem look_put_of_ne (t : Table κ α) {k k' : κ} (v : α) (h : k ≠ k') :
    look (put t k' v) k = look t k := by
  induction t with
  | nil => simp [put, look, h]
  | cons p t ih =>
    by_cases ha : k' = p.1
    · have hk : k ≠ p.1 := ha ▸ h
      simp [put, look, ha, hk]
    · by_cases hk : k = p.1
      · simp [put, look, ha, hk]
      · simp [put, look, ha, hk, ih]

@[simp] theorem look_remove_self (t : Table κ α) (k : κ) : look (remove t k) k = none := by
  induction t with
  | nil => rfl
  | cons p t ih =>
    by_cases h : k = p.1
    · simpa [remove, h] using ih
    · simpa [remove, h, look] using ih

theorem look_remove_of_ne (t : Table κ α) {k k' : κ} (h : k ≠ k') :
    look (remove t k') k = look t k := by
  induction t with
  | nil => rfl
  | cons p t ih =>
    by_cases ha : k' = p.1
    · have hk : k ≠ p.1 := ha ▸ h
      simpa [remove, look, ha, hk] using ih
    · by_cases hk : k = p.1
      · simp [remove, look, ha, hk]
      · simpa [remove, look, ha, hk] using ih

theorem look_put (t : Table κ α) (k k' : κ) (v : α) :
    look (put t k' v) k = if k = k' then some v else look t k := by
  split
  · rename_i h
    rw [h, look_put_self]
  · rename_i h
    exact look_put_of_ne t v h

theorem look_remove (t : Table κ α) (k k' : κ) :
    look (remove t k') k = if k = k' then none else look t k := by
  split
  · rename_i h
    rw [h, look_remove_self]
  · rename_i h
    exact look_remove_of_ne t h

@[simp] theorem put_put (t : Table κ α) (k : κ) (v w : α) : put (put t k v) k w = put t k w := by
  induction t with
  | nil => simp [put]
  | cons p t ih =>
    by_cases h : k = p.1
    · simp [put, h]
    · simp [put, h, ih]

theorem put_look {t : Table κ α} {k : κ} {v : α} (h : look t k = some v) : put t k v = t := by
  induction t with
  | nil => cases h
  | cons p t ih =>
    obtain ⟨k', v'⟩ := p
    by_cases hk : k = k'
    · subst hk
      obtain rfl : v' = v := by simpa [look] using h
      simp [put]
    · simp [put, hk, ih (by simpa [look, hk] using h)]

theorem put_comm {t : Table κ α} {k k' : κ} {u : α} (h : look t k = some u) (hne : k ≠ k') (v w : α) :
    put (put t k v) k' w = put (put t k' w) k v := by
  induction t with
  | nil => cases h
  | cons p t ih =>
    by_cases hk : k = p.1
    · have hk' : k' ≠ p.1 := fun he => hne (hk.trans he.symm)
      simp [put, hk, hk']
    · have ih := ih (by simpa [look, hk] using h)
      by_cases hk' : k' = p.1 <;> simp [put, hk, hk', ih]

@[simp] theorem remove_put_self (t : Table κ α) (k : κ) (v : α) :
    remove (put t k v) k = remove t k := by
  induction t with
  | nil => simp [put, remove]
  | cons p t ih =>
    by_cases hk : k = p.1
    · simp [put, remove, hk]
    · simpa [put, remove, hk] using ih

theorem remove_put_of_ne (t : Table κ α) {k k' : κ} (v : α) (h : k ≠ k') :
    remove (put t k' v) k = put (remove t k) k' v := by
  induction t with
  | nil => simp [put, remove, h]
  | cons p t ih =>
    by_cases hk' : k' = p.1
    · have hk : k ≠ p.1 := fun he => h (he.trans hk'.symm)
      simp [put, remove, hk', hk]
    · by_cases hk : k = p.1
      · simpa [put, remove, hk', hk] using ih
      · simpa [put, remove, hk', hk] using ih

end Table

end TopicQueue
