namespace WikiQuery

-- A map from texts that keeps its entries in the order of their keys, code point by code point.
structure KeyMap (α : Type) where
  entries : List (String × α)
  sorted : entries.Pairwise (fun a b => a.1 < b.1)
deriving DecidableEq

namespace KeyMap

variable {α : Type}

protected def empty : KeyMap α := ⟨[], .nil⟩

instance : EmptyCollection (KeyMap α) := ⟨KeyMap.empty⟩

instance : Inhabited (KeyMap α) := ⟨∅⟩

def isEmpty (m : KeyMap α) : Bool := m.entries.isEmpty

def size (m : KeyMap α) : Nat := m.entries.length

def get? (m : KeyMap α) (key : String) : Option α := m.entries.lookup key

def contains (m : KeyMap α) (key : String) : Bool := (m.get? key).isSome

-- Puts an entry in its place; `keep` says whether an entry already there stays.
def put (keep : Bool) (key : String) (value : α) : List (String × α) → List (String × α)
  | [] => [(key, value)]
  | (k, v) :: rest =>
    if key < k then (key, value) :: (k, v) :: rest
    else if k < key then (k, v) :: put keep key value rest
    else if keep then (k, v) :: rest
    else (key, value) :: rest

theorem mem_put {keep : Bool} {key : String} {value : α} {e : String × α}
    {l : List (String × α)} (h : e ∈ put keep key value l) : e.1 = key ∨ e ∈ l := by
  induction l with
  | nil => simp [put] at h; simp [h]
  | cons head rest ih =>
    obtain ⟨k, v⟩ := head
    rw [put] at h
    split at h
    · rcases List.mem_cons.1 h with rfl | h
      · exact .inl rfl
      · exact .inr h
    split at h
    · rcases List.mem_cons.1 h with rfl | h
      · exact .inr (by simp)
      · exact (ih h).imp id (fun h => by simp [h])
    split at h
    · exact .inr h
    · rcases List.mem_cons.1 h with rfl | h
      · exact .inl rfl
      · exact .inr (by simp [h])

theorem put_sorted (keep : Bool) (key : String) (value : α) {l : List (String × α)}
    (h : l.Pairwise (fun a b => a.1 < b.1)) :
    (put keep key value l).Pairwise (fun a b => a.1 < b.1) := by
  induction l with
  | nil => simp [put]
  | cons head rest ih =>
    obtain ⟨k, v⟩ := head
    obtain ⟨hk, hrest⟩ := List.pairwise_cons.1 h
    rw [put]
    split
    · next hlt =>
      refine List.pairwise_cons.2 ⟨fun e he => ?_, h⟩
      rcases List.mem_cons.1 he with rfl | he
      · exact hlt
      · exact String.lt_trans hlt (hk e he)
    split
    · next hlt =>
      refine List.pairwise_cons.2 ⟨fun e he => ?_, ih hrest⟩
      rcases mem_put he with heq | he
      · exact heq ▸ hlt
      · exact hk e he
    split
    · exact h
    · -- neither key is smaller, so the entry replaced has the same key
      next h1 h2 _ =>
      have hkey : key = k := String.le_antisymm (String.not_lt.1 h2) (String.not_lt.1 h1)
      exact List.pairwise_cons.2 ⟨fun e he => hkey ▸ hk e he, hrest⟩

-- Sets the value of a key.
def insert (m : KeyMap α) (key : String) (value : α) : KeyMap α :=
  ⟨put false key value m.entries, put_sorted false key value m.sorted⟩

-- Sets the value of a key unless it has one.
def insertNew (m : KeyMap α) (key : String) (value : α) : KeyMap α :=
  ⟨put true key value m.entries, put_sorted true key value m.sorted⟩

-- Reads the pairs in order; for a key that is given again the last value counts.
def ofList (l : List (String × α)) : KeyMap α :=
  l.foldl (fun m e => m.insert e.1 e.2) ∅

-- The union of two maps; where both have a value, the first map's stays.
def union (m n : KeyMap α) : KeyMap α :=
  n.entries.foldl (fun m e => m.insertNew e.1 e.2) m

end KeyMap

end WikiQuery
