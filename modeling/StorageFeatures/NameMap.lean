/-!
# Finite maps from names

`NameMap α` keeps one value per name, the names in ascending order. The order of names is the
order of their code points, which is also the order of their encoded bytes. Two maps are equal
exactly when they answer every look-up alike (`NameMap.ext_get?`), so the order in which a map
was built never shows.
-/

namespace StorageFeatures

/-- Values under names, the names strictly ascending. -/
structure NameMap (α : Type) where
  entries : List (String × α)
  ascending : entries.Pairwise fun a b => a.1 < b.1

namespace NameMap

variable {α β : Type}

instance [DecidableEq α] : DecidableEq (NameMap α) := fun m n =>
  if h : m.entries = n.entries then
    .isTrue (by cases m; cases n; simp_all)
  else .isFalse (by rintro rfl; exact h rfl)

/-! ### Entries -/

/-- The value that stands first under a name. -/
def find (k : String) : List (String × α) → Option α
  | [] => none
  | (k', v) :: r => if k = k' then some v else find k r

/-- Puts a value under its name, in place of an older one. -/
def put (k : String) (v : α) : List (String × α) → List (String × α)
  | [] => [(k, v)]
  | (k', v') :: r =>
    if k < k' then (k, v) :: (k', v') :: r
    else if k = k' then (k, v) :: r
    else (k', v') :: put k v r

theorem mem_put {k : String} {v : α} {a : String × α} {l : List (String × α)}
    (h : a ∈ put k v l) : a = (k, v) ∨ a ∈ l := by
  induction l with
  | nil => simpa [put] using h
  | cons b r ih =>
    unfold put at h
    grind

/-- Putting a value changes what is found under its own name only. -/
theorem find_put (k k' : String) (v : α) (l : List (String × α)) :
    find k' (put k v l) = if k' = k then some v else find k' l := by
  induction l with
  | nil => simp [put, find]
  | cons b r ih =>
    obtain ⟨kb, vb⟩ := b
    unfold put
    grind [find]

/-- A value is put at the place that keeps the names in order. -/
theorem put_ascending (k : String) (v : α) {l : List (String × α)}
    (h : l.Pairwise fun a b => a.1 < b.1) : (put k v l).Pairwise fun a b => a.1 < b.1 := by
  induction l with
  | nil => simp [put]
  | cons b r ih =>
    rw [List.pairwise_cons] at h
    obtain ⟨hb, hr⟩ := h
    unfold put
    split
    · rename_i hk
      refine List.pairwise_cons.2 ⟨fun a ha => ?_, List.pairwise_cons.2 ⟨hb, hr⟩⟩
      rcases List.mem_cons.1 ha with rfl | ha
      · exact hk
      · exact String.lt_trans hk (hb a ha)
    · split
      · rename_i hk
        subst hk
        exact List.pairwise_cons.2 ⟨hb, hr⟩
      · rename_i h₁ h₂
        refine List.pairwise_cons.2 ⟨fun a ha => ?_, ih hr⟩
        rcases mem_put ha with rfl | ha
        · grind
        · exact hb a ha

/-- A name before all others is not found. -/
theorem find_eq_none_of_lt {k : String} {l : List (String × α)} (h : ∀ a ∈ l, k < a.1) :
    find k l = none := by
  induction l with
  | nil => rfl
  | cons b r ih =>
    have hb := h b (by simp)
    have : k ≠ b.1 := by rintro rfl; exact String.lt_irrefl _ hb
    simp [find, this, ih fun a ha => h a (by simp [ha])]

/-- In ascending order every pair is found, since no name stands twice. -/
theorem find_eq_some_iff {k : String} {v : α} {l : List (String × α)}
    (h : l.Pairwise fun a b => a.1 < b.1) : find k l = some v ↔ (k, v) ∈ l := by
  induction l with
  | nil => simp [find]
  | cons b r ih =>
    rw [List.pairwise_cons] at h
    obtain ⟨kb, vb⟩ := b
    by_cases hk : k = kb
    · subst hk
      have : (k, v) ∉ r := fun hm => String.lt_irrefl k (h.1 (k, v) hm)
      simp [find, this, eq_comm]
    · simp [find, hk, ih h.2]

/-! ### Maps -/

def empty : NameMap α := ⟨[], .nil⟩

instance : EmptyCollection (NameMap α) := ⟨empty⟩
instance : Inhabited (NameMap α) := ⟨empty⟩

/-- The value under a name. -/
def get? (m : NameMap α) (k : String) : Option α := find k m.entries

/-- Whether a name has a value. -/
def contains (m : NameMap α) (k : String) : Bool := (m.get? k).isSome

/-- The map with a value under a name. -/
def insert (m : NameMap α) (k : String) (v : α) : NameMap α :=
  ⟨put k v m.entries, put_ascending k v m.ascending⟩

/-- The map without a name. -/
def erase (m : NameMap α) (k : String) : NameMap α :=
  ⟨m.entries.filter (·.1 ≠ k), m.ascending.filter _⟩

/-- The map of some pairs; of two pairs with one name the later counts. -/
def ofList (l : List (String × α)) : NameMap α :=
  l.foldl (fun m a => m.insert a.1 a.2) ∅

/-- The names in ascending order. -/
def keys (m : NameMap α) : List String := m.entries.map (·.1)

/-- The values in the order of their names. -/
def values (m : NameMap α) : List α := m.entries.map (·.2)

def size (m : NameMap α) : Nat := m.entries.length

def isEmpty (m : NameMap α) : Bool := m.entries.isEmpty

@[simp] theorem get?_empty (k : String) : (∅ : NameMap α).get? k = none := rfl

/-- An insertion is seen under its own name only. -/
theorem get?_insert (m : NameMap α) (k k' : String) (v : α) :
    (m.insert k v).get? k' = if k' = k then some v else m.get? k' :=
  find_put k k' v m.entries

@[simp] theorem get?_insert_self (m : NameMap α) (k : String) (v : α) :
    (m.insert k v).get? k = some v := by
  simp [get?_insert]

/-- The look-ups tell the entries. -/
theorem get?_eq_some_iff {m : NameMap α} {k : String} {v : α} :
    m.get? k = some v ↔ (k, v) ∈ m.entries :=
  find_eq_some_iff m.ascending

/-- A removal is seen under its own name only. -/
theorem get?_erase (m : NameMap α) (k k' : String) :
    (m.erase k).get? k' = if k' = k then none else m.get? k' := by
  apply Option.ext
  intro v
  rw [get?_eq_some_iff, erase]
  by_cases h : k' = k <;> simp [h, get?_eq_some_iff]

@[simp] theorem get?_erase_self (m : NameMap α) (k : String) : (m.erase k).get? k = none := by
  simp [get?_erase]

theorem mem_keys_iff {m : NameMap α} {k : String} : k ∈ m.keys ↔ ∃ v, m.get? k = some v := by
  simp [keys, get?_eq_some_iff]

theorem mem_values_iff {m : NameMap α} {v : α} : v ∈ m.values ↔ ∃ k, m.get? k = some v := by
  simp [values, get?_eq_some_iff]

theorem mem_keys_iff_contains {m : NameMap α} {k : String} : k ∈ m.keys ↔ m.contains k = true := by
  rw [mem_keys_iff, contains, Option.isSome_iff_exists]

/-- No name is listed twice. -/
theorem nodup_keys (m : NameMap α) : m.keys.Nodup :=
  (List.pairwise_map.mpr m.ascending).imp fun h => String.ne_of_lt h

/-- Of two pairs with one name the later counts. -/
theorem get?_ofList (l : List (String × α)) (k : String) :
    (ofList l).get? k = (l.reverse.find? fun a => a.1 = k).map (·.2) := by
  -- the map is built up pair by pair, from any map
  have built : ∀ (l : List (String × α)) (m : NameMap α),
      (l.foldl (fun m a => m.insert a.1 a.2) m).get? k =
        ((l.reverse.find? fun a => a.1 = k).map (·.2)).or (m.get? k) := by
    intro l
    induction l with
    | nil => exact fun m => rfl
    | cons a l ih =>
      intro m
      rw [List.foldl_cons, ih, get?_insert, List.reverse_cons, List.find?_append, Option.map_or,
        Option.or_assoc]
      congr 1
      by_cases h : a.1 = k
      · simp [h]
      · simp [h, Ne.symm h]
  rw [ofList, built, get?_empty, Option.or_none]

/-- Entries in ascending order are fixed by the look-ups. -/
theorem entries_ext {l₁ l₂ : List (String × α)} (h₁ : l₁.Pairwise fun a b => a.1 < b.1)
    (h₂ : l₂.Pairwise fun a b => a.1 < b.1) (h : ∀ k, find k l₁ = find k l₂) : l₁ = l₂ := by
  induction l₁ generalizing l₂ with
  | nil =>
    cases l₂ with
    | nil => rfl
    | cons b r => simpa [find] using h b.1
  | cons a r ih =>
    obtain ⟨ka, va⟩ := a
    cases l₂ with
    | nil => simpa [find] using h ka
    | cons b s =>
      obtain ⟨kb, vb⟩ := b
      rw [List.pairwise_cons] at h₁ h₂
      have hk : ka = kb := by
        have ha : ¬ ka < kb := fun hlt => by
          have := h ka
          rw [find_eq_none_of_lt (l := (kb, vb) :: s)] at this
          · simp [find] at this
          · intro c hc
            rcases List.mem_cons.1 hc with rfl | hc
            · exact hlt
            · exact String.lt_trans hlt (h₂.1 c hc)
        have hb : ¬ kb < ka := fun hlt => by
          have := h kb
          rw [find_eq_none_of_lt (l := (ka, va) :: r)] at this
          · simp [find] at this
          · intro c hc
            rcases List.mem_cons.1 hc with rfl | hc
            · exact hlt
            · exact String.lt_trans hlt (h₁.1 c hc)
        grind
      subst hk
      have hv : va = vb := by simpa [find] using h ka
      subst hv
      refine congrArg _ (ih h₁.2 h₂.2 fun k => ?_)
      by_cases hk : k = ka
      · subst hk
        rw [find_eq_none_of_lt h₁.1, find_eq_none_of_lt h₂.1]
      · simpa [find, hk] using h k

/-- Maps with the same look-ups are equal. -/
theorem ext_get? {m n : NameMap α} (h : ∀ k, m.get? k = n.get? k) : m = n := by
  have := entries_ext m.ascending n.ascending h
  cases m; cases n; simp_all

/-- A map can be built from its entries in any order. -/
theorem ofList_eq_of_mem_iff {m : NameMap α} {l : List (String × α)}
    (h : ∀ a, a ∈ l ↔ a ∈ m.entries) : ofList l = m := by
  refine ext_get? fun k => Option.ext fun v => ?_
  rw [get?_ofList, get?_eq_some_iff]
  constructor
  · intro hfind
    obtain ⟨a, ha, rfl⟩ := Option.map_eq_some_iff.mp hfind
    obtain rfl : a.1 = k := by simpa using List.find?_some ha
    exact (h a).mp (List.mem_reverse.mp (List.mem_of_find?_eq_some ha))
  · intro hmem
    have hsome : (l.reverse.find? fun a => a.1 = k).isSome :=
      List.find?_isSome.mpr ⟨(k, v), List.mem_reverse.mpr ((h _).mpr hmem), by simp⟩
    obtain ⟨a, ha⟩ := Option.isSome_iff_exists.mp hsome
    obtain rfl : a.1 = k := by simpa using List.find?_some ha
    -- both stand under the name, which has one value
    have hfound := (h a).mp (List.mem_reverse.mp (List.mem_of_find?_eq_some ha))
    rw [ha, Option.map_some, ← get?_eq_some_iff.mpr hfound]
    exact get?_eq_some_iff.mpr hmem

theorem ofList_entries (m : NameMap α) : ofList m.entries = m :=
  ofList_eq_of_mem_iff fun _ => Iff.rfl

/-! ### Counting names -/

theorem length_keys (m : NameMap α) : m.keys.length = m.size := List.length_map _

/-- The names keep their order when one of them goes. -/
theorem keys_erase (m : NameMap α) (k : String) : (m.erase k).keys = m.keys.erase k := by
  rw [m.nodup_keys.erase_eq_filter]
  unfold keys erase
  rw [List.filter_map]
  congr 1
  exact List.filter_congr fun a _ => by simp [bne, Bool.beq_eq_decide_eq]

/-- A name that is there, and the other names. -/
theorem perm_keys_erase {m : NameMap α} {k : String} (h : m.contains k = true) :
    m.keys.Perm (k :: (m.erase k).keys) := by
  rw [keys_erase]
  exact List.perm_cons_erase (mem_keys_iff_contains.mpr h)

/-- A name that has a value is one of those that are counted. -/
theorem size_erase (m : NameMap α) (k : String) :
    (m.erase k).size + (m.get? k).toList.length = m.size := by
  cases h : m.get? k with
  | none =>
    have hsame : m.erase k = m := ext_get? fun k' => by
      rw [get?_erase]
      split <;> simp_all
    rw [hsame]
    rfl
  | some v =>
    have hlength := (perm_keys_erase (m := m) (k := k) (by simp [contains, h])).length_eq
    rw [List.length_cons, length_keys, length_keys] at hlength
    exact hlength.symm

/-- What is inserted under a name is gone with it. -/
theorem erase_insert_self (m : NameMap α) (k : String) (v : α) :
    (m.insert k v).erase k = m.erase k :=
  ext_get? fun k' => by simp only [get?_erase, get?_insert]; split <;> rfl

/-- An insertion adds one to the size unless the name had a value before. -/
theorem size_insert (m : NameMap α) (k : String) (v : α) :
    (m.insert k v).size + (m.get? k).toList.length = m.size + 1 := by
  have hnew := size_erase (m.insert k v) k
  rw [erase_insert_self, get?_insert_self] at hnew
  have hold := size_erase m k
  simp only [Option.toList, List.length_singleton] at hnew
  omega

end NameMap

/-- A finite set of names. -/
abbrev NameSet := NameMap Unit

namespace NameSet

def add (s : NameSet) (k : String) : NameSet := s.insert k ()

/-- A name that is added joins the others. -/
@[simp] theorem contains_add (s : NameSet) (k k' : String) :
    (s.add k).contains k' = (k' = k || s.contains k') := by
  by_cases h : k' = k <;> simp [add, NameMap.contains, NameMap.get?_insert, h]

@[simp] theorem contains_erase (s : NameSet) (k k' : String) :
    NameMap.contains (s.erase k) k' = (k' ≠ k && NameMap.contains s k') := by
  by_cases h : k' = k <;> simp [NameMap.contains, NameMap.get?_erase, h]

theorem eq_empty_iff {s : NameSet} : s = ∅ ↔ ∀ k, NameMap.contains s k = false := by
  constructor
  · rintro rfl k
    rfl
  · refine fun h => NameMap.ext_get? fun k => ?_
    exact Option.not_isSome_iff_eq_none.mp (by simpa [NameMap.contains] using h k)

end NameSet

end StorageFeatures
