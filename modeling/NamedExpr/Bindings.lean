/-!
# Bindings

A finite map from names, kept as a list in the order of the names, so that equal maps are equal lists
whatever the order in which they were built. `get?_insert`, `get?_erase` and `get?_map` say what the
operations do to the map, and `ext_get?` that there is nothing more to it. The entries are what the names are bound to
(`get?_eq_some_iff`), and the map can be made of them again (`ofList_entries`).
-/

namespace NamedExpr

/-- The entries of a map stand in ascending order of their names. -/
def Ascending {α : Type} (entries : List (String × α)) : Prop :=
  entries.Pairwise fun a b => a.1 < b.1

/-- A finite map from names. -/
structure Bindings (α : Type) where
  entries : List (String × α)
  ascending : Ascending entries

namespace Bindings

variable {α β : Type}

/-- Puts an entry in its place, instead of one of the same name. -/
def insertEntry (name : String) (value : α) : List (String × α) → List (String × α)
  | [] => [(name, value)]
  | (n, v) :: rest =>
    if name < n then (name, value) :: (n, v) :: rest
    else if name = n then (name, value) :: rest
    else (n, v) :: insertEntry name value rest

theorem mem_insertEntry {name : String} {value : α} {entries : List (String × α)} {e : String × α}
    (h : e ∈ insertEntry name value entries) : e = (name, value) ∨ e ∈ entries := by
  induction entries with
  | nil => exact .inl (by simpa [insertEntry] using h)
  | cons first rest ih =>
    obtain ⟨n, v⟩ := first
    simp only [insertEntry] at h
    split at h
    · simpa using h
    · split at h
      · grind
      · grind

theorem ascending_insertEntry (name : String) (value : α) {entries : List (String × α)}
    (h : Ascending entries) : Ascending (insertEntry name value entries) := by
  induction entries with
  | nil => simp [insertEntry, Ascending]
  | cons first rest ih =>
    obtain ⟨n, v⟩ := first
    have rule := List.pairwise_cons.1 h
    simp only [insertEntry]
    split
    · refine List.pairwise_cons.2 ⟨fun e he => ?_, h⟩
      rcases List.mem_cons.1 he with rfl | he
      · assumption
      · exact String.lt_trans ‹name < n› (rule.1 e he)
    · split
      · rename_i same
        exact List.pairwise_cons.2 ⟨fun e he => same ▸ rule.1 e he, rule.2⟩
      · refine List.pairwise_cons.2 ⟨fun e he => ?_, ih rule.2⟩
        rcases mem_insertEntry he with rfl | he
        · show n < name
          grind
        · exact rule.1 e he

/-- The map without entries. -/
def empty : Bindings α := ⟨[], List.Pairwise.nil⟩

/-- The map with one more entry, which takes the place of an entry of the same name. -/
def insert (b : Bindings α) (name : String) (value : α) : Bindings α :=
  ⟨insertEntry name value b.entries, ascending_insertEntry name value b.ascending⟩

/-- The map without the entry of a name. -/
def erase (b : Bindings α) (name : String) : Bindings α :=
  ⟨b.entries.filter fun e => e.1 ≠ name, b.ascending.filter _⟩

/-- The map with every value changed by a function. -/
def map (f : α → β) (b : Bindings α) : Bindings β :=
  ⟨b.entries.map fun e => (e.1, f e.2), by
    have sorted := b.ascending
    simpa only [Ascending, List.pairwise_map] using sorted⟩

/-- The map with the given entries, of which a later one takes the place of an earlier of the same name. -/
def ofList (entries : List (String × α)) : Bindings α :=
  entries.foldl (fun b e => b.insert e.1 e.2) empty

/-- What a name is bound to. -/
def get? (b : Bindings α) (name : String) : Option α := b.entries.lookup name

/-- Whether a name is bound. -/
def contains (b : Bindings α) (name : String) : Bool := (b.get? name).isSome

/-- The bound names in ascending order. -/
def names (b : Bindings α) : List String := b.entries.map Prod.fst

/-- The number of bound names. -/
def size (b : Bindings α) : Nat := b.entries.length

@[simp]
theorem get?_empty (n : String) : (empty : Bindings α).get? n = none := rfl

theorem lookup_cons_eq (m : String) (v : α) (rest : List (String × α)) (n : String) :
    ((m, v) :: rest).lookup n = if n = m then some v else rest.lookup n := by
  rw [List.lookup_cons]
  by_cases h : n = m
  · simp [h]
  · rw [beq_eq_false_iff_ne.2 h]
    simp [h]

theorem lookup_insertEntry (name : String) (value : α) (entries : List (String × α)) (n : String) :
    (insertEntry name value entries).lookup n = if n = name then some value else entries.lookup n := by
  induction entries with
  | nil => simp only [insertEntry, lookup_cons_eq]
  | cons first rest ih =>
    obtain ⟨m, v⟩ := first
    simp only [insertEntry]
    split
    · rw [lookup_cons_eq]
    · split
      · rename_i same
        subst same
        simp only [lookup_cons_eq]
        split <;> rfl
      · rename_i other
        simp only [lookup_cons_eq, ih]
        by_cases h : n = m
        · subst h
          simp [Ne.symm other]
        · simp [h]

/-- After an insertion the name has the new value and all others have theirs. -/
@[simp]
theorem get?_insert (b : Bindings α) (name : String) (value : α) (n : String) :
    (b.insert name value).get? n = if n = name then some value else b.get? n :=
  lookup_insertEntry name value b.entries n

theorem lookup_filter_ne (entries : List (String × α)) (name n : String) :
    (entries.filter fun e => e.1 ≠ name).lookup n = if n = name then none else entries.lookup n := by
  induction entries with
  | nil => simp
  | cons first rest ih =>
    obtain ⟨m, v⟩ := first
    rw [List.filter_cons]
    by_cases hm : m = name
    · subst hm
      simp only [ne_eq, not_true_eq_false, decide_false, Bool.false_eq_true, ↓reduceIte, lookup_cons_eq]
      rw [ih]
      split <;> rfl
    · simp only [ne_eq, hm, not_false_eq_true, decide_true, ↓reduceIte, lookup_cons_eq, ih]
      by_cases h : n = m
      · subst h
        simp [hm]
      · simp [h]

/-- After an erasure the name has no value and all others have theirs. -/
@[simp]
theorem get?_erase (b : Bindings α) (name n : String) :
    (b.erase name).get? n = if n = name then none else b.get? n :=
  lookup_filter_ne b.entries name n

theorem lookup_map_snd (f : α → β) (entries : List (String × α)) (n : String) :
    (entries.map fun e => (e.1, f e.2)).lookup n = (entries.lookup n).map f := by
  induction entries with
  | nil => rfl
  | cons first rest ih =>
    obtain ⟨m, v⟩ := first
    simp only [List.map_cons, lookup_cons_eq, ih]
    split <;> rfl

/-- Every value is changed by the function. -/
@[simp]
theorem get?_map (f : α → β) (b : Bindings α) (n : String) : (b.map f).get? n = (b.get? n).map f :=
  lookup_map_snd f b.entries n

theorem lookup_eq_none_of_lt {entries : List (String × α)} {n : String}
    (h : ∀ e ∈ entries, n < e.1) : entries.lookup n = none := by
  induction entries with
  | nil => rfl
  | cons first rest ih =>
    obtain ⟨m, v⟩ := first
    have below : n < m := h (m, v) List.mem_cons_self
    have differs : n ≠ m := by grind
    rw [lookup_cons_eq, ite_cond_eq_false _ _ (eq_false differs)]
    exact ih fun e he => h e (List.mem_cons_of_mem _ he)

theorem lookup_cons_eq_none_of_lt {k n : String} {w : α} {rest : List (String × α)}
    (h : Ascending ((k, w) :: rest)) (less : n < k) : ((k, w) :: rest).lookup n = none := by
  refine lookup_eq_none_of_lt fun e he => ?_
  rcases List.mem_cons.1 he with rfl | he
  · exact less
  · exact String.lt_trans less ((List.pairwise_cons.1 h).1 e he)

/-- Ascending lists in which every name is found alike are equal. -/
theorem eq_of_lookup {s t : List (String × α)} (hs : Ascending s) (ht : Ascending t)
    (h : ∀ n, s.lookup n = t.lookup n) : s = t := by
  induction s generalizing t with
  | nil =>
    cases t with
    | nil => rfl
    | cons b t =>
      have found := h b.1
      rw [lookup_cons_eq] at found
      simp at found
  | cons a s ih =>
    obtain ⟨m, v⟩ := a
    cases t with
    | nil =>
      have found := h m
      rw [lookup_cons_eq] at found
      simp at found
    | cons b t =>
      obtain ⟨k, w⟩ := b
      by_cases same : m = k
      · subst same
        have values : v = w := by simpa [lookup_cons_eq] using h m
        subst values
        refine congrArg (List.cons (m, v)) (ih (List.pairwise_cons.1 hs).2 (List.pairwise_cons.1 ht).2 ?_)
        intro n
        by_cases hn : n = m
        · subst hn
          rw [lookup_eq_none_of_lt (List.pairwise_cons.1 hs).1,
            lookup_eq_none_of_lt (List.pairwise_cons.1 ht).1]
        · simpa [lookup_cons_eq, hn] using h n
      · exfalso
        by_cases less : m < k
        · have found := h m
          rw [lookup_cons_eq_none_of_lt ht less, lookup_cons_eq] at found
          simp at found
        · have found := h k
          rw [lookup_cons_eq_none_of_lt hs (by grind), lookup_cons_eq] at found
          simp at found

/-- A name is found with a value exactly if the two are an entry. -/
theorem lookup_eq_some_iff {entries : List (String × α)} (h : Ascending entries) {n : String} {v : α} :
    entries.lookup n = some v ↔ (n, v) ∈ entries := by
  induction entries with
  | nil => simp
  | cons first rest ih =>
    obtain ⟨m, w⟩ := first
    obtain ⟨below, ascending⟩ := List.pairwise_cons.1 h
    rw [lookup_cons_eq, List.mem_cons, ← ih ascending]
    by_cases same : n = m
    · subst same
      have once : rest.lookup n = none := lookup_eq_none_of_lt below
      simp [once, eq_comm]
    · simp [same]

theorem get?_eq_some_iff {b : Bindings α} {n : String} {v : α} : b.get? n = some v ↔ (n, v) ∈ b.entries :=
  lookup_eq_some_iff b.ascending

theorem mem_names_iff {b : Bindings α} {n : String} : n ∈ b.names ↔ b.contains n = true := by
  simp [names, contains, Option.isSome_iff_exists, get?_eq_some_iff]

theorem names_ascending (b : Bindings α) : b.names.Pairwise (· < ·) := List.pairwise_map.2 b.ascending

/-- Two maps that bind every name alike are equal. -/
theorem ext_get? {a b : Bindings α} (h : ∀ n, a.get? n = b.get? n) : a = b := by
  have same := eq_of_lookup a.ascending b.ascending h
  cases a
  cases b
  cases same
  rfl

theorem get?_foldl_insert {entries : List (String × α)} (h : Ascending entries) (b : Bindings α) (n : String) :
    (entries.foldl (fun b e => b.insert e.1 e.2) b).get? n = (entries.lookup n).or (b.get? n) := by
  induction entries generalizing b with
  | nil => rfl
  | cons first rest ih =>
    obtain ⟨m, v⟩ := first
    obtain ⟨below, ascending⟩ := List.pairwise_cons.1 h
    rw [List.foldl_cons, ih ascending, get?_insert, lookup_cons_eq]
    by_cases same : n = m
    · subst same
      have once : rest.lookup n = none := lookup_eq_none_of_lt below
      simp [once]
    · simp [same]

/-- A map is made of its entries. -/
theorem ofList_entries (b : Bindings α) : ofList b.entries = b := by
  apply ext_get?
  intro n
  rw [ofList, get?_foldl_insert b.ascending, get?_empty, Option.or_none]
  rfl

end Bindings

end NamedExpr
