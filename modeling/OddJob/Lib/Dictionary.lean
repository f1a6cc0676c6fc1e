import Mathlib.Data.List.Nodup

/-! Dictionaries that enumerate their entries in order of insertion. -/

/-- Every key has one entry. -/
structure Dictionary (Key Value : Type) where
  entries : List (Key × Value) := []
  distinct : (entries.map Prod.fst).Nodup := by simp

namespace Dictionary

variable {Key Value : Type}

instance : EmptyCollection (Dictionary Key Value) := ⟨{}⟩

def keys (dictionary : Dictionary Key Value) : List Key := dictionary.entries.map Prod.fst

theorem keys_nodup (dictionary : Dictionary Key Value) : dictionary.keys.Nodup :=
  dictionary.distinct

theorem entry_unique (dictionary : Dictionary Key Value) {key : Key} {left right : Value}
    (first : (key, left) ∈ dictionary.entries) (second : (key, right) ∈ dictionary.entries) :
    left = right :=
  congrArg Prod.snd (List.inj_on_of_nodup_map dictionary.distinct first second rfl)

variable [DecidableEq Key]

def containsKey (dictionary : Dictionary Key Value) (key : Key) : Bool :=
  dictionary.keys.contains key

@[simp] theorem containsKey_iff {dictionary : Dictionary Key Value} {key : Key} :
    dictionary.containsKey key = true ↔ key ∈ dictionary.keys := by
  simp [containsKey]

/-- The value of a key, if the key is there. -/
def lookup (dictionary : Dictionary Key Value) (key : Key) : Option Value :=
  (dictionary.entries.find? fun entry => entry.1 = key).map Prod.snd

theorem lookup_eq_some_iff {dictionary : Dictionary Key Value} {key : Key} {value : Value} :
    dictionary.lookup key = some value ↔ (key, value) ∈ dictionary.entries := by
  constructor
  · intro found
    obtain ⟨⟨other, _⟩, present, rfl⟩ := Option.map_eq_some_iff.mp found
    have same : other = key := by simpa using List.find?_some present
    exact same ▸ List.mem_of_find?_eq_some present
  · intro member
    cases found : dictionary.entries.find? fun entry => entry.1 = key with
    | none =>
      have absent := List.find?_eq_none.mp found (key, value) member
      simp at absent
    | some entry =>
      obtain ⟨other, listed⟩ := entry
      have same : other = key := by simpa using List.find?_some found
      subst same
      have present := List.mem_of_find?_eq_some found
      rw [lookup, found, Option.map_some, dictionary.entry_unique present member]

/-- `Add`, which refuses a key that is there. -/
def add (dictionary : Dictionary Key Value) (key : Key) (value : Value) :
    Option (Dictionary Key Value) :=
  if fresh : key ∈ dictionary.keys then none
  else some {
    entries := dictionary.entries ++ [(key, value)]
    distinct := by
      rw [List.map_append]
      exact List.nodup_append.mpr ⟨dictionary.distinct, List.nodup_singleton _, by
        intro other member last same equal
        obtain rfl := List.mem_singleton.mp same
        exact fresh (equal ▸ member)⟩ }

theorem add_eq_some_iff {dictionary added : Dictionary Key Value} {key : Key} {value : Value} :
    dictionary.add key value = some added ↔
      key ∉ dictionary.keys ∧ added.entries = dictionary.entries ++ [(key, value)] := by
  rw [add]
  split
  · rename_i present
    simp [present]
  · rename_i fresh
    obtain ⟨entries, distinct⟩ := added
    simp [fresh, eq_comm]

theorem add_eq_none_iff {dictionary : Dictionary Key Value} {key : Key} {value : Value} :
    dictionary.add key value = none ↔ key ∈ dictionary.keys := by
  rw [add]
  split <;> simp_all

/-- `Remove`, which does nothing where the key is not there. -/
def remove (dictionary : Dictionary Key Value) (key : Key) : Dictionary Key Value where
  entries := dictionary.entries.filter fun entry => entry.1 ≠ key
  distinct := dictionary.distinct.sublist (List.filter_sublist.map _)

@[simp] theorem mem_entries_remove {dictionary : Dictionary Key Value} {key : Key}
    {entry : Key × Value} :
    entry ∈ (dictionary.remove key).entries ↔ entry ∈ dictionary.entries ∧ entry.1 ≠ key := by
  simp [remove]

theorem keys_remove (dictionary : Dictionary Key Value) (key : Key) :
    (dictionary.remove key).keys = dictionary.keys.filter (· ≠ key) := by
  rw [keys, keys, List.filter_map]
  rfl

end Dictionary
