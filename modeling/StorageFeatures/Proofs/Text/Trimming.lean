import StorageFeatures.Text.Blank

/-!
# Trimming

A text is trimmed to what neither begins nor ends with a blank and has nothing but blanks around it
in the text. There is exactly one such part, and `trimChars` finds it (`trims_iff`). Blanks that are
put around a text do not matter, and a part that neither begins nor ends with a blank stays whole
whatever follows it (`trimChars_append`).
-/

namespace StorageFeatures.Text

/-- All characters are blanks. -/
def Blank (cs : List Char) : Prop := ∀ c ∈ cs, isBlank c = true

/-- The characters neither begin nor end with a blank. -/
structure Bare (cs : List Char) : Prop where
  head : ∀ c ∈ cs.head?, isBlank c = false
  last : ∀ c ∈ cs.getLast?, isBlank c = false

/-- A text without the blanks around it. -/
def Trims (cs t : List Char) : Prop :=
  ∃ before after, cs = before ++ t ++ after ∧ Blank before ∧ Blank after ∧ Bare t

variable {cs t before after : List Char}

/-- What is left after trimming has no blanks at its ends. -/
theorem Trims.bare (h : Trims cs t) : Bare t := by
  obtain ⟨_, _, -, -, -, hbare⟩ := h
  exact hbare

theorem bare_of_forall (h : ∀ c ∈ t, isBlank c = false) : Bare t :=
  ⟨fun c hc => h c (List.mem_of_mem_head? hc), fun c hc => h c (List.mem_of_mem_getLast? hc)⟩

theorem bare_of_any (h : t.any isBlank = false) : Bare t :=
  bare_of_forall (by simpa using h)

theorem Bare.reverse (h : Bare t) : Bare t.reverse :=
  ⟨by simpa using h.last, by simpa using h.head⟩

/-- Parts without blanks at their ends can be joined. -/
theorem Bare.append {s : List Char} (hs : Bare s) (ht : Bare t) : Bare (s ++ t) := by
  constructor
  · intro c hc
    rw [List.head?_append, Option.mem_def, Option.or_eq_some_iff] at hc
    exact hc.elim (hs.head c) fun h => ht.head c h.2
  · intro c hc
    rw [List.getLast?_append, Option.mem_def, Option.or_eq_some_iff] at hc
    exact hc.elim (ht.last c) fun h => hs.last c h.2

/-! ### One end -/

/-- What is dropped at the beginning is blank. -/
theorem blank_takeWhile (cs : List Char) : Blank (cs.takeWhile isBlank) :=
  List.all_eq_true.mp (List.all_takeWhile ..)

theorem head?_trimLeft {c : Char} (h : c ∈ (trimLeft cs).head?) : isBlank c = false := by
  cases htrim : trimLeft cs with
  | nil =>
    rw [htrim] at h
    cases h
  | cons d r =>
    rw [htrim] at h
    obtain rfl := Option.some.inj h
    exact head_trimLeft htrim

theorem trimLeft_append (h : Blank before) (cs : List Char) :
    trimLeft (before ++ cs) = trimLeft cs :=
  List.dropWhile_append_of_pos h

theorem trimLeft_eq_self (h : ∀ c ∈ cs.head?, isBlank c = false) : trimLeft cs = cs := by
  cases cs with
  | nil => rfl
  | cons c r => exact trimLeft_cons_of_not (h c rfl)

/-- What stands first and is no blank stops the trimming. -/
theorem trimLeft_append_of_head (hne : t ≠ []) (h : ∀ c ∈ t.head?, isBlank c = false)
    (after : List Char) : trimLeft (t ++ after) = t ++ after := by
  cases t with
  | nil => exact absurd rfl hne
  | cons c r => exact trimLeft_cons_of_not (h c rfl)

/-- Trimming at the end stops at what is no blank. -/
theorem trimLeft_reverse_append (h : Bare t) (after : List Char) :
    (trimLeft (t ++ after).reverse).reverse = t ++ (trimLeft after.reverse).reverse := by
  have hstop : trimLeft t.reverse = t.reverse := trimLeft_eq_self h.reverse.head
  rw [List.reverse_append, trimLeft, List.dropWhile_append]
  split
  · rename_i hnil
    have hafter : trimLeft after.reverse = [] := List.isEmpty_iff.mp hnil
    rw [← trimLeft, hstop, hafter, List.reverse_reverse, List.reverse_nil, List.append_nil]
  · rw [← trimLeft, List.reverse_append, List.reverse_reverse]

/-! ### Both ends -/

/-- **What stays whole.** A part without blanks at its ends is kept, and trimming goes on behind
it. -/
theorem trimChars_append (hb : Blank before) (hne : t ≠ []) (h : Bare t) (after : List Char) :
    trimChars (before ++ t ++ after) = t ++ (trimLeft after.reverse).reverse := by
  rw [trimChars, List.append_assoc, trimLeft_append hb, trimLeft_append_of_head hne h.head,
    trimLeft_reverse_append h]

theorem trimLeft_reverse_eq_nil (h : Blank cs) : trimLeft cs.reverse = [] :=
  trimLeft_eq_nil_iff.mpr fun c hc => h c (List.mem_reverse.mp hc)

/-- Trimming at the end leaves a part that stands first. -/
theorem trimLeft_reverse_prefix (cs : List Char) : (trimLeft cs.reverse).reverse <+: cs := by
  rw [← List.reverse_suffix, List.reverse_reverse]
  exact List.dropWhile_suffix isBlank

/-- Trimming finds the text between the blanks. -/
theorem trimChars_of_trims (h : Trims cs t) : trimChars cs = t := by
  obtain ⟨before, after, rfl, hb, ha, bare⟩ := h
  by_cases hne : t = []
  · subst hne
    have hblank : trimLeft after = [] := trimLeft_eq_nil_iff.mpr ha
    rw [trimChars, List.append_nil, trimLeft_append hb, hblank]
    rfl
  · rw [trimChars_append hb hne bare, trimLeft_reverse_eq_nil ha, List.reverse_nil, List.append_nil]

/-- Every text has such a part. -/
theorem trims_trimChars (cs : List Char) : Trims cs (trimChars cs) := by
  -- the blanks at the end of what is left after the blanks at the beginning
  have hend : trimChars cs ++ ((trimLeft cs).reverse.takeWhile isBlank).reverse = trimLeft cs := by
    have hsplit : (trimLeft cs).reverse.takeWhile isBlank ++ trimLeft (trimLeft cs).reverse =
      (trimLeft cs).reverse := List.takeWhile_append_dropWhile
    rw [trimChars, ← List.reverse_append, hsplit, List.reverse_reverse]
  refine ⟨cs.takeWhile isBlank, ((trimLeft cs).reverse.takeWhile isBlank).reverse, ?_,
    blank_takeWhile cs, fun c hc => blank_takeWhile _ c (List.mem_reverse.mp hc), ?_, ?_⟩
  · rw [List.append_assoc, hend]
    exact List.takeWhile_append_dropWhile.symm
  · intro c hc
    have head : c ∈ (trimLeft cs).head? := by
      rw [← hend, List.head?_append, Option.mem_def.mp hc]
      rfl
    exact head?_trimLeft head
  · intro c hc
    rw [trimChars, List.getLast?_reverse] at hc
    exact head?_trimLeft hc

/-- **Trimming is exact.** -/
theorem trims_iff : Trims cs t ↔ trimChars cs = t :=
  ⟨trimChars_of_trims, fun h => h ▸ trims_trimChars cs⟩

/-- A text without blanks at its ends is trimmed already. -/
theorem Bare.trims (h : Bare t) : Trims t t :=
  ⟨[], [], (List.append_nil t).symm, List.forall_mem_nil _, List.forall_mem_nil _, h⟩

/-- What trimming leaves of the end of a text does not depend on what stands before it. -/
theorem exists_trims_append (after : List Char) :
    ∃ rest, ∀ t, Bare t → t ≠ [] → Trims (t ++ after) (t ++ rest) :=
  ⟨_, fun _ h hne => trims_iff.mpr (trimChars_append (List.forall_mem_nil _) hne h after)⟩

end StorageFeatures.Text
