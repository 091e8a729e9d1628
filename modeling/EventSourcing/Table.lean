/-
# Tables ordered by key

A `Table` maps texts to values and keeps its entries in the order of their keys, the order of their
code points (which is also that of their UTF-8 bytes).  The order is part of the type, so two tables
with the same values under the same keys are equal.

What the file settles, for the view `get?`:

* `get?_insert`, `get?_erase`, `get?_empty`: one equation per operation;
* `get?_ofList`: of several values under one key the last one counts.
-/
namespace EventSourcing

/-- Values by key, in the order of the keys. -/
structure Table (α : Type) where
  entries : List (String × α)
  sorted : entries.Pairwise (fun a b => a.1 < b.1)

namespace Table

variable {α : Type}

/-! ## 1. Operations -/

/-- Puts an entry in its place, over the one with the same key if there is one. -/
def put (key : String) (value : α) : List (String × α) → List (String × α)
  | [] => [(key, value)]
  | e :: rest =>
    if key < e.1 then (key, value) :: e :: rest
    else if key = e.1 then (key, value) :: rest
    else e :: put key value rest

theorem mem_put {key : String} {value : α} {entries : List (String × α)} {e : String × α}
    (h : e ∈ put key value entries) : e = (key, value) ∨ e ∈ entries := by
  induction entries with
  | nil => simpa [put] using h
  | cons x rest ih =>
    simp only [put] at h
    split at h
    · simpa using h
    · split at h
      · rcases List.mem_cons.1 h with h | h
        · exact .inl h
        · exact .inr (List.mem_cons_of_mem _ h)
      · rcases List.mem_cons.1 h with h | h
        · exact .inr (h ▸ List.mem_cons_self)
        · exact (ih h).imp_right (List.mem_cons_of_mem _)

theorem sorted_put {key : String} {value : α} {entries : List (String × α)}
    (h : entries.Pairwise (fun a b => a.1 < b.1)) :
    (put key value entries).Pairwise (fun a b => a.1 < b.1) := by
  induction entries with
  | nil => simp [put]
  | cons x rest ih =>
    obtain ⟨hx, hrest⟩ := List.pairwise_cons.1 h
    simp only [put]
    split
    · rename_i hlt
      refine List.pairwise_cons.2 ⟨fun e he => ?_, h⟩
      rcases List.mem_cons.1 he with rfl | he
      · exact hlt
      · exact String.lt_trans hlt (hx e he)
    · split
      · rename_i heq
        exact List.pairwise_cons.2 ⟨fun e he => heq ▸ hx e he, hrest⟩
      · rename_i hnlt hne
        refine List.pairwise_cons.2 ⟨fun e he => ?_, ih hrest⟩
        rcases mem_put he with rfl | he
        · exact String.not_le.1 fun hle => hne (String.le_antisymm hle (String.not_lt.1 hnlt))
        · exact hx e he

/-- The first value under the key. -/
def find? (key : String) : List (String × α) → Option α
  | [] => none
  | e :: rest => if key = e.1 then some e.2 else find? key rest

/-- The table with no entry. -/
def empty : Table α := ⟨[], .nil⟩

instance : Inhabited (Table α) := ⟨empty⟩

/-- The value under a key. -/
def get? (t : Table α) (key : String) : Option α := find? key t.entries

/-- The table with the value under the key, in place of the one before. -/
def insert (t : Table α) (key : String) (value : α) : Table α :=
  ⟨put key value t.entries, sorted_put t.sorted⟩

/-- The table without the key. -/
def erase (t : Table α) (key : String) : Table α :=
  ⟨t.entries.filter (·.1 != key), t.sorted.sublist List.filter_sublist⟩

/-- Whether the key has a value. -/
def contains (t : Table α) (key : String) : Bool := (t.get? key).isSome

/-- The number of keys. -/
def size (t : Table α) : Nat := t.entries.length

/-- The keys in order. -/
def keys (t : Table α) : List String := t.entries.map (·.1)

/-- The table of these entries; of two under one key the later one counts. -/
def ofList (entries : List (String × α)) : Table α :=
  entries.foldl (fun t e => t.insert e.1 e.2) empty

/-! ## 2. The view -/

theorem ext_entries {t u : Table α} (h : t.entries = u.entries) : t = u := by
  cases t
  cases u
  cases h
  rfl

instance [DecidableEq α] : DecidableEq (Table α) := fun t u =>
  if h : t.entries = u.entries then isTrue (ext_entries h) else isFalse fun e => h (e ▸ rfl)

@[simp] theorem get?_empty (key : String) : (empty : Table α).get? key = none := rfl

theorem find?_put (key other : String) (value : α) (entries : List (String × α)) :
    find? other (put key value entries) =
      if other = key then some value else find? other entries := by
  induction entries with
  | nil => rfl
  | cons x rest ih =>
    simp only [put]
    split
    · rfl
    · split
      · rename_i heq
        simp only [find?, ← heq]
        split <;> rfl
      · rename_i hne
        simp only [find?, ih]
        split
        · rename_i hox
          have hok : other ≠ key := fun hok => hne (hok ▸ hox)
          rw [if_neg hok]
        · rfl

theorem get?_insert (t : Table α) (key other : String) (value : α) :
    (t.insert key value).get? other = if other = key then some value else t.get? other :=
  find?_put key other value t.entries

theorem find?_filter (key other : String) (entries : List (String × α)) :
    find? other (entries.filter (·.1 != key)) =
      if other = key then none else find? other entries := by
  induction entries with
  | nil => simp [find?]
  | cons x rest ih =>
    by_cases hx : x.1 = key
    · by_cases ho : other = key
      · simpa [hx, ho] using ih
      · simpa [hx, ho, find?] using ih
    · by_cases ho : other = x.1
      · simp [hx, find?, ho]
      · simpa [hx, find?, ho] using ih

theorem get?_erase (t : Table α) (key other : String) :
    (t.erase key).get? other = if other = key then none else t.get? other :=
  find?_filter key other t.entries

theorem get?_foldl_insert (entries : List (String × α)) (t : Table α) (key : String) :
    (entries.foldl (fun t e => t.insert e.1 e.2) t).get? key =
      (find? key entries.reverse).or (t.get? key) := by
  have find?_append : ∀ l r : List (String × α),
      find? key (l ++ r) = (find? key l).or (find? key r) := by
    intro l r
    induction l with
    | nil => simp [find?]
    | cons x l ih => simp only [List.cons_append, find?]; split <;> simp [ih]
  induction entries generalizing t with
  | nil => simp [find?]
  | cons e rest ih =>
    rw [List.foldl_cons, ih, get?_insert, List.reverse_cons, find?_append, Option.or_assoc]
    congr 1
    by_cases h : key = e.1 <;> simp [find?, h]

theorem get?_ofList (entries : List (String × α)) (key : String) :
    (ofList entries).get? key = find? key entries.reverse := by
  simp [ofList, get?_foldl_insert]

end Table

end EventSourcing
