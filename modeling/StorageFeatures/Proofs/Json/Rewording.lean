import StorageFeatures.Json.Decode
import Mathlib.Data.List.Nodup

/-!
# Other words for the same document

A document can be written in more than one way: the members of an object may stand in another
order, members may be added whose names mean nothing to its reader, and a member may be left out
where it holds the default. A `Layout` says of the objects of one kind which names have a meaning,
in which words the values under them may be put, and which values may be left out;
`Layout.Rewords` relates two documents of which the second says the same as the first.

A reader asks for the names that it knows, so all that matters about a reworded object is what
stands under these (`Layout.Rewords.worded`). The lemmas on `field` and `lastField` read the answer
off that.
-/

namespace StorageFeatures.Json

variable {α : Type} {ms ms' kept : List (String × Json)} {k : String} {j j' : Json}

/-! ### Fields that were written -/

/-- An optional member is found under its own name if it is there. -/
@[simp] theorem lookup_member? (k k' : String) (f : α → Json) (o : Option α) :
    lookup k (member? k' f o) = if k = k' then o.map f else none := by
  cases o <;> simp [member?, lookup]

theorem member?_sublist {f : α → Json} {o : Option α} :
    ((member? k f o).map (·.1)).Sublist [k] := by
  cases o with
  | none => exact List.nil_sublist _
  | some a => exact List.Sublist.refl _

/-- A list of names and texts is read into the map from first to last. -/
theorem readNameItems_map (l : List (String × String)) (m : NameMap String) :
    readNameItems (l.map fun (k, v) => (k, .string v)) m =
      .ok (l.foldl (fun m a => m.insert a.1 a.2) m) := by
  induction l generalizing m with
  | nil => rfl
  | cons a l ih => exact ih (m.insert a.1 a.2)

/-- Texts under names are read back. -/
theorem readNames_ofNames (m : NameMap String) : readNames (ofNames m) = .ok m :=
  (readNameItems_map m.entries ∅).trans (congrArg _ (NameMap.ofList_entries m))

theorem readList_strings (l : List String) : readList readString (strings l) = .ok l := by
  have hread : readItems readString (l.map .string) = .ok (l.map id) := readItems_map fun _ _ => rfl
  rw [strings, readList, hread, List.map_id]

theorem readInt64_int {n : Int} (h : Int64.minValue.toInt ≤ n ∧ n ≤ Int64.maxValue.toInt) :
    readInt64 (.int n) = .ok n :=
  if_pos h

theorem occurrences_le_one {ms : List (String × Json)} (once : (ms.map (·.1)).Nodup) (k : String) :
    occurrences k ms ≤ 1 := by
  have hle := List.nodup_iff_count.mp once k
  rw [List.count, List.countP_map] at hle
  refine Nat.le_trans (Nat.le_of_eq ?_) hle
  exact List.countP_congr fun a _ => by simp

/-- A field of an object in which no name is repeated. -/
theorem field_of_nodup {ms : List (String × Json)} (once : (ms.map (·.1)).Nodup) {k : String}
    {j : Json} (h : lookup k ms = some j) {read : Reads α} {a : α} (hread : read j = .ok a) :
    field ms k read = .ok (some a) := by
  simp only [field, if_neg (Nat.not_lt.mpr (occurrences_le_one once k)), h, hread]
  rfl

/-! ### What was read -/

section

variable {β ε : Type} {a : α} {read : Reads α} {i : Nat} {items : List Json}

theorem exists_of_bind_eq_ok {x : Except ε α} {f : α → Except ε β} {b : β}
    (h : x >>= f = .ok b) : ∃ a, x = .ok a ∧ f a = .ok b := by
  cases x with
  | error e => cases h
  | ok a => exact ⟨a, rfl, h⟩

theorem exists_of_map_eq_ok {x : Except ε α} {f : α → β} {b : β} (h : x.map f = .ok b) :
    ∃ a, x = .ok a ∧ f a = b := by
  cases x with
  | error e => cases h
  | ok a => exact ⟨a, rfl, Except.ok.inj h⟩

theorem exists_of_field (h : field ms k read = .ok (some a)) : ∃ j, read j = .ok a := by
  unfold field at h
  split at h
  · cases h
  · split at h
    · cases h
    · obtain ⟨_, hread, heq⟩ := exists_of_map_eq_ok h
      exact ⟨_, Option.some.inj heq ▸ hread⟩

theorem exists_of_item (h : item items i read = .ok (some a)) : ∃ j, read j = .ok a := by
  unfold item at h
  split at h
  · cases h
  · obtain ⟨_, hread, heq⟩ := exists_of_map_eq_ok h
    exact ⟨_, Option.some.inj heq ▸ hread⟩

theorem exists_of_lastField (h : lastField ms k read = .ok (some a)) : ∃ j, read j = .ok a := by
  unfold lastField at h
  split at h
  · cases h
  · unfold readOption at h
    split at h
    · cases h
    · obtain ⟨_, hread, heq⟩ := exists_of_map_eq_ok h
      exact ⟨_, Option.some.inj heq ▸ hread⟩

theorem eq_some_of_require {o : Option α} (h : require k o = .ok a) : o = some a := by
  cases o with
  | none => cases h
  | some a => exact congrArg some (Except.ok.inj h)

theorem eq_some_of_requireItem {shape : String} {o : Option α}
    (h : requireItem i shape o = .ok a) : o = some a := by
  cases o with
  | none => cases h
  | some a => exact congrArg some (Except.ok.inj h)

/-- An integer that was read has 64 bits. -/
theorem range_of_readInt64 {n : Int} (h : readInt64 j = .ok n) :
    Int64.minValue.toInt ≤ n ∧ n ≤ Int64.maxValue.toInt := by
  unfold readInt64 readInteger at h
  split at h
  · split at h
    · rename_i hrange
      obtain rfl := Except.ok.inj h
      exact hrange
    · cases h
  · cases h

end

/-! ### Look-ups of names that occur once -/

theorem occurrences_cons (k : String) (a : String × Json) (ms : List (String × Json)) :
    occurrences k (a :: ms) = occurrences k ms + if a.1 = k then 1 else 0 := by
  simp [occurrences, List.countP_cons]

theorem occurrences_append (k : String) (l₁ l₂ : List (String × Json)) :
    occurrences k (l₁ ++ l₂) = occurrences k l₁ + occurrences k l₂ :=
  List.countP_append

/-- A name that does not occur has no member. -/
theorem occurrences_eq_zero_iff : occurrences k ms = 0 ↔ ∀ j, (k, j) ∉ ms := by
  rw [occurrences, List.countP_eq_zero]
  constructor
  · intro h j hj
    exact h _ hj (by simp)
  · rintro h ⟨k', j⟩ hj
    simp only [decide_eq_true_eq]
    rintro rfl
    exact h j hj

theorem lookup_eq_none_of_occurrences (h : occurrences k ms = 0) : lookup k ms = none := by
  induction ms with
  | nil => rfl
  | cons a ms ih =>
    rw [occurrences_cons] at h
    have ha : ¬ k = a.1 := fun heq => by simp [heq] at h
    rw [lookup, ih (by omega), if_neg ha]
    rfl

/-- Under a name that occurs once there is one value to find. -/
theorem lookup_eq_some_iff (once : occurrences k ms ≤ 1) : lookup k ms = some j ↔ (k, j) ∈ ms := by
  induction ms with
  | nil => simp
  | cons a ms ih =>
    obtain ⟨k', j'⟩ := a
    rw [occurrences_cons] at once
    by_cases hk : k' = k
    · subst hk
      have hnone : occurrences k' ms = 0 := by simpa using once
      have hmem := occurrences_eq_zero_iff.mp hnone j
      simp [lookup, lookup_eq_none_of_occurrences hnone, hmem, eq_comm]
    · have hk' : ¬ k = k' := fun h => hk h.symm
      rw [lookup, if_neg hk', Option.or_none, ih (by simpa [hk] using once)]
      simp [hk']

/-- The order of members does not matter to a name that occurs once. -/
theorem lookup_of_perm (perm : ms'.Perm ms) (once : occurrences k ms ≤ 1) :
    lookup k ms' = lookup k ms := by
  have once' : occurrences k ms' ≤ 1 := Nat.le_trans (Nat.le_of_eq (perm.countP_eq _)) once
  refine Option.ext fun j => ?_
  rw [lookup_eq_some_iff once', lookup_eq_some_iff once, perm.mem_iff]

/-! ### Rewording an object -/

/-- What is known about the objects of one kind. -/
structure Layout where
  /-- The names that mean something to a reader. -/
  known : List String
  /-- In which other words the value under a name may be put. -/
  inside : String → Json → Json → Prop := fun _ => Eq
  same : ∀ k j, inside k j j := by exact fun _ _ => rfl
  /-- The value that is meant where a name is left out. -/
  default? : String → Option Json := fun _ => none

namespace Layout

variable {l : Layout}

/-- Each member is kept, with its value put in other words, or it is left out because it holds the
default. -/
inductive Keeps (l : Layout) : List (String × Json) → List (String × Json) → Prop where
  | nil : Keeps l [] []
  | keep {k : String} {j j' : Json} {ms kept : List (String × Json)} (words : l.inside k j j')
      (rest : Keeps l ms kept) : Keeps l ((k, j) :: ms) ((k, j') :: kept)
  | leaveOut {k : String} {j : Json} {ms kept : List (String × Json)}
      (default : l.default? k = some j) (rest : Keeps l ms kept) : Keeps l ((k, j) :: ms) kept

/-- The same in other words: what is kept of the members of an object, together with members whose
names are not known, in any order. -/
inductive Rewords (l : Layout) : Json → Json → Prop where
  | refl (j : Json) : Rewords l j j
  | intro {ms kept extra ms' : List (String × Json)} (keeps : l.Keeps ms kept)
      (unknown : ∀ a ∈ extra, a.1 ∉ l.known) (perm : ms'.Perm (kept ++ extra)) :
      Rewords l (.object ms) (.object ms')

theorem Keeps.refl (ms : List (String × Json)) : l.Keeps ms ms := by
  induction ms with
  | nil => exact .nil
  | cons a ms ih => exact .keep (l.same _ _) ih

/-- The members in another order. -/
theorem Rewords.of_perm (perm : ms'.Perm ms) : l.Rewords (.object ms) (.object ms') :=
  .intro (.refl ms) (List.forall_mem_nil _) (perm.trans (.of_eq (List.append_nil ms).symm))

/-- What stands under a name before and after. -/
inductive Worded (l : Layout) (k : String) : Option Json → Option Json → Prop where
  | absent : Worded l k none none
  | kept {j j' : Json} (words : l.inside k j j') : Worded l k (some j) (some j')
  | leftOut {j : Json} (default : l.default? k = some j) : Worded l k (some j) none

theorem Worded.refl (k : String) (o : Option Json) : l.Worded k o o := by
  cases o with
  | none => exact .absent
  | some j => exact .kept (l.same k j)

/-- Keeping members repeats no name. -/
theorem Keeps.occurrences_le (keeps : l.Keeps ms kept) (k : String) :
    occurrences k kept ≤ occurrences k ms := by
  induction keeps with
  | nil => exact Nat.le_refl _
  | keep words rest ih =>
    rw [occurrences_cons, occurrences_cons]
    exact Nat.add_le_add_right ih _
  | leaveOut default rest ih =>
    rw [occurrences_cons]
    exact Nat.le_trans ih (Nat.le_add_right _ _)

/-- What stands under a name that occurs once is kept or left out. -/
theorem Keeps.worded (keeps : l.Keeps ms kept) (once : occurrences k ms ≤ 1) :
    l.Worded k (lookup k ms) (lookup k kept) := by
  induction keeps with
  | nil => exact .absent
  | @keep k' j j' ms kept words rest ih =>
    rw [occurrences_cons] at once
    by_cases hk : k' = k
    · subst hk
      -- the name stood here, so it stands nowhere else
      have hnone : occurrences k' ms = 0 := by simpa using once
      have hnone' : occurrences k' kept = 0 := by
        have hle := rest.occurrences_le k'
        omega
      rw [lookup, lookup, lookup_eq_none_of_occurrences hnone,
        lookup_eq_none_of_occurrences hnone', if_pos rfl, if_pos rfl]
      exact .kept words
    · have hk' : ¬ k = k' := fun h => hk h.symm
      rw [lookup, lookup, if_neg hk', if_neg hk', Option.or_none, Option.or_none]
      exact ih (by simpa [hk] using once)
  | @leaveOut k' j ms kept default rest ih =>
    rw [occurrences_cons] at once
    by_cases hk : k' = k
    · subst hk
      have hnone : occurrences k' ms = 0 := by simpa using once
      have hnone' : occurrences k' kept = 0 := by
        have hle := rest.occurrences_le k'
        omega
      rw [lookup, lookup_eq_none_of_occurrences hnone, lookup_eq_none_of_occurrences hnone',
        if_pos rfl]
      exact .leftOut default
    · have hk' : ¬ k = k' := fun h => hk h.symm
      rw [lookup, if_neg hk', Option.or_none]
      exact ih (by simpa [hk] using once)

/-- **Only known names matter.** In a reworded object a known name occurs once at most, and what
stands under it was kept or left out. -/
theorem Rewords.worded (h : l.Rewords (.object ms) j') (once : (ms.map (·.1)).Nodup) :
    ∃ ms', j' = .object ms' ∧ ∀ k ∈ l.known,
      occurrences k ms' ≤ 1 ∧ l.Worded k (lookup k ms) (lookup k ms') := by
  have honce : ∀ k, occurrences k ms ≤ 1 := fun k => occurrences_le_one once k
  cases h with
  | refl => exact ⟨ms, rfl, fun k _ => ⟨honce k, .refl k _⟩⟩
  | @intro _ kept extra ms' keeps unknown perm =>
    refine ⟨ms', rfl, fun k hk => ?_⟩
    have hextra : occurrences k extra = 0 :=
      occurrences_eq_zero_iff.mpr fun j hj => unknown _ hj hk
    have hkept : occurrences k (kept ++ extra) ≤ 1 := by
      rw [occurrences_append, hextra]
      exact Nat.le_trans (keeps.occurrences_le k) (honce k)
    refine ⟨Nat.le_trans (Nat.le_of_eq (perm.countP_eq _)) hkept, ?_⟩
    rw [lookup_of_perm perm hkept, lookup_append, lookup_eq_none_of_occurrences hextra,
      Option.none_or]
    exact keeps.worded (honce k)

end Layout

/-! ### Reading reworded objects -/

section

variable {β : Type} {l : Layout} {read : Reads α}

/-- A field that cannot be left out reads as what was written, or is absent where nothing was. -/
theorem field_of_worded (write : β → Json) {f : β → α} {o : Option β}
    (h : occurrences k ms' ≤ 1 ∧ l.Worded k (lookup k ms) (lookup k ms'))
    (needed : l.default? k = none) (written : lookup k ms = o.map write)
    (hread : ∀ b ∈ o, ∀ j', l.inside k (write b) j' → read j' = .ok (f b)) :
    field ms' k read = .ok (o.map f) := by
  obtain ⟨once, worded⟩ := h
  rw [written] at worded
  rw [field, if_neg (Nat.not_lt.mpr once)]
  generalize lookup k ms' = found at worded
  cases o with
  | none =>
    cases worded
    rfl
  | some b =>
    cases worded with
    | kept words => simp [hread b rfl _ words, Except.map]
    | leftOut default => simp [needed] at default

/-- A field that was written and cannot be left out. -/
theorem field_of_worded_some {j : Json} {a : α}
    (h : occurrences k ms' ≤ 1 ∧ l.Worded k (lookup k ms) (lookup k ms'))
    (needed : l.default? k = none) (written : lookup k ms = some j)
    (hread : ∀ j', l.inside k j j' → read j' = .ok a) : field ms' k read = .ok (some a) :=
  field_of_worded id (o := some j) (f := fun _ => a) h needed written fun _ hj j' words => by
    obtain rfl := Option.some.inj hj
    exact hread j' words

/-- A text that was written and cannot be left out. -/
theorem text_of_worded {s : String}
    (h : occurrences k ms' ≤ 1 ∧ l.Worded k (lookup k ms) (lookup k ms'))
    (written : lookup k ms = some (.string s)) (plain : l.inside k = Eq)
    (needed : l.default? k = none) : field ms' k readString = .ok (some s) := by
  refine field_of_worded_some h needed written fun j' words => ?_
  rw [plain] at words
  rw [← words]
  rfl

/-- A field that may be left out reads as what was written, or is absent where that is the
default. -/
theorem field_of_worded_default {j default : Json} {a d : α}
    (h : occurrences k ms' ≤ 1 ∧ l.Worded k (lookup k ms) (lookup k ms'))
    (written : lookup k ms = some j) (own : read j = .ok a)
    (hread : ∀ j', l.inside k j j' → read j' = .ok a) (hdefault : l.default? k = some default)
    (hd : read default = .ok d) : ∃ o, field ms' k read = .ok o ∧ o.getD d = a := by
  obtain ⟨once, worded⟩ := h
  rw [written] at worded
  rw [field, if_neg (Nat.not_lt.mpr once)]
  generalize lookup k ms' = found at worded
  cases worded with
  | kept words => exact ⟨some a, by simp [hread _ words, Except.map], rfl⟩
  | leftOut left =>
    obtain rfl := Option.some.inj (hdefault.symm.trans left)
    exact ⟨none, rfl, Except.ok.inj (hd.symm.trans own)⟩

/-- A flag that may be left out where it does not hold. -/
theorem flag_of_worded {b : Bool}
    (h : occurrences k ms' ≤ 1 ∧ l.Worded k (lookup k ms) (lookup k ms'))
    (written : lookup k ms = some (.bool b)) (plain : l.inside k = Eq)
    (default : l.default? k = some (.bool false)) :
    ∃ o, field ms' k readBool = .ok o ∧ o.getD false = b := by
  refine field_of_worded_default h written rfl (fun j' words => ?_) default rfl
  rw [plain] at words
  rw [← words]
  rfl

/-- A field of which the last occurrence counts reads as what was written. -/
theorem lastField_of_worded {write : α → Json} {o : Option α}
    (h : l.Worded k (lookup k ms) (lookup k ms')) (needed : l.default? k = none)
    (written : lookup k ms = o.map write)
    (hread : ∀ a ∈ o, ∀ j', l.inside k (write a) j' → readOption read j' = .ok (some a)) :
    lastField ms' k read = .ok o := by
  rw [written] at h
  rw [lastField]
  generalize lookup k ms' = found at h
  cases o with
  | none =>
    cases h
    rfl
  | some a =>
    cases h with
    | kept words => exact hread a rfl _ words
    | leftOut default => simp [needed] at default

end

/-! ### Texts under names -/

/-- The same with the members of an object in another order. -/
inductive Reorders : Json → Json → Prop where
  | refl (j : Json) : Reorders j j
  | intro {ms ms' : List (String × Json)} (perm : ms'.Perm ms) :
      Reorders (.object ms) (.object ms')

/-- A member that holds a text, as a pair of texts. -/
def memberText : String × Json → String × String
  | (k, .string s) => (k, s)
  | (k, _) => (k, "")

/-- The texts of an object are read in any order. -/
theorem readNames_of_reorders {m : NameMap String} (h : Reorders (ofNames m) j') :
    readNames j' = .ok m := by
  generalize hm : ofNames m = j at h
  cases h with
  | refl =>
    rw [← hm]
    exact readNames_ofNames m
  | @intro ms ms' perm =>
    obtain rfl := Json.object.inj hm
    -- every member holds a text, so the members are those of some pairs of texts
    have htexts : ms' = (ms'.map memberText).map fun a => (a.1, .string a.2) := by
      rw [List.map_map]
      refine (List.map_id ms').symm.trans (List.map_congr_left fun a ha => ?_)
      obtain ⟨b, -, rfl⟩ := List.mem_map.mp (perm.mem_iff.mp ha)
      rfl
    have hentries : (ms'.map memberText).Perm m.entries := by
      have hperm := perm.map memberText
      rw [List.map_map] at hperm
      exact hperm.trans (List.Perm.of_eq (List.map_id m.entries))
    rw [htexts, readNames]
    refine (readNameItems_map _ ∅).trans (congrArg _ ?_)
    exact NameMap.ofList_eq_of_mem_iff fun a => hentries.mem_iff

/-- A map in another order is read as the same map. -/
theorem readOption_of_reorders {m : NameMap String} (h : Reorders (ofNames m) j') :
    readOption readNames j' = .ok (some m) := by
  have hread := readNames_of_reorders h
  cases h <;> exact congrArg (Except.map some) hread

end StorageFeatures.Json
