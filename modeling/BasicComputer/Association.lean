/-!
# Association lists

A finite map kept as a list of keys and values, each key once, in the order in which the keys
came in. `List.lookup` reads it and `assign` is the only way to change it: the value of a known
key is replaced in its place, and a new key goes to the end.

The two lemmas say what the map is and how large it is afterwards; nothing else needs to look
inside.
-/

namespace BasicComputer.Association

variable {κ α : Type} [BEq κ]

/-- The list with a value for a key, whatever the key had before. -/
def assign (key : κ) (value : α) : List (κ × α) → List (κ × α)
  | [] => [(key, value)]
  | (other, old) :: rest =>
    if other == key then (key, value) :: rest else (other, old) :: assign key value rest

variable [LawfulBEq κ]

/-- Only the assigned key has changed. -/
theorem lookup_assign (key k : κ) (value : α) (entries : List (κ × α)) :
    (assign key value entries).lookup k =
      if k == key then some value else entries.lookup k := by
  induction entries with
  | nil => by_cases h : k == key <;> simp [assign, List.lookup_cons, h]
  | cons entry rest ih =>
    obtain ⟨other, old⟩ := entry
    by_cases hother : other == key
    · have : other = key := eq_of_beq hother
      subst this
      by_cases hk : k == other <;> simp [assign, List.lookup_cons, hk]
    · by_cases hk : k == other
      · have : k = other := eq_of_beq hk
        subst this
        simp [assign, hother]
      · simp [assign, List.lookup_cons, hother, hk, ih]

/-- The map grows exactly when the key is new. -/
theorem length_assign (key : κ) (value : α) (entries : List (κ × α)) :
    (assign key value entries).length =
      entries.length + if (entries.lookup key).isSome then 0 else 1 := by
  induction entries with
  | nil => simp [assign]
  | cons entry rest ih =>
    obtain ⟨other, old⟩ := entry
    by_cases hother : other == key
    · have : other = key := eq_of_beq hother
      subst this
      simp [assign]
    · have hkey : (key == other) = false := by
        by_cases h : key == other
        · exact absurd (by rw [eq_of_beq h]; exact beq_self_eq_true other) hother
        · simpa using h
      rw [assign, if_neg hother, List.lookup_cons, hkey]
      simp only [List.length_cons, ih]
      omega

end BasicComputer.Association
