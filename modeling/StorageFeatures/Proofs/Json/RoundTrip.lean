import StorageFeatures.Proofs.Json.Scalars

/-!
# Text that is read back

Reading what `Json.compact` writes gives the value that was written (`Json.parse_compact`),
provided that the reader can have it at all: its integers fit 64 bits, it holds no floating-point
number, and it does not nest too deeply.
-/

namespace StorageFeatures.Json

open Reading

/-! ### What can be read -/

mutual

/-- Whether a value can be read where so many levels may still open. -/
def Readable (depth : Nat) : Json → Prop
  | .null | .bool _ | .string _ => True
  | .number (.integer n) => Int64.minValue.toInt ≤ n ∧ n ≤ Reading.wordMax
  | .number (.real _) => False
  | .array items => 1 < depth ∧ ReadableItems (depth - 1) items
  | .object ms => 1 < depth ∧ ReadableMembers (depth - 1) ms

def ReadableItems (depth : Nat) : List Json → Prop
  | [] => True
  | j :: r => Readable depth j ∧ ReadableItems depth r

def ReadableMembers (depth : Nat) : List (String × Json) → Prop
  | [] => True
  | (_, j) :: r => Readable depth j ∧ ReadableMembers depth r

end

theorem readableMembers_iff {depth : Nat} {ms : List (String × Json)} :
    ReadableMembers depth ms ↔ ∀ a ∈ ms, a.2.Readable depth := by
  induction ms with
  | nil => simp [ReadableMembers]
  | cons a r ih => simp [ReadableMembers, ih]

theorem readableItems_iff {depth : Nat} {l : List Json} :
    ReadableItems depth l ↔ ∀ j ∈ l, j.Readable depth := by
  induction l with
  | nil => simp [ReadableItems]
  | cons j r ih => simp [ReadableItems, ih]

theorem readableMembers_append {depth : Nat} {l₁ l₂ : List (String × Json)} :
    ReadableMembers depth (l₁ ++ l₂) ↔ ReadableMembers depth l₁ ∧ ReadableMembers depth l₂ := by
  simp only [readableMembers_iff, List.forall_mem_append]

theorem readableMembers_member? {depth : Nat} {k : String} {f : α → Json} {o : Option α}
    (h : ∀ a ∈ o, (f a).Readable depth) : ReadableMembers depth (member? k f o) := by
  cases o with
  | none => trivial
  | some a => exact ⟨h a rfl, trivial⟩

/-! ### What is written -/

mutual

/-- Writing adds to what is written. -/
theorem write_eq (out : String) : ∀ j, write out j = out ++ compact j
  | .null | .bool _ | .number _ | .string _ => rfl
  | .array items => by
    have h := writeItems_eq (out ++ "[") true items
    have h' := writeItems_eq "[" true items
    simp only [compact, write, h, h', String.append_assoc, String.empty_append]
  | .object ms => by
    have h := writeMembers_eq (out ++ "\x7b") true ms
    have h' := writeMembers_eq "\x7b" true ms
    simp only [compact, write, h, h', String.append_assoc, String.empty_append]

/-- Items are written behind what was written before. -/
theorem writeItems_eq (out : String) (first : Bool) :
    ∀ l, writeItems out first l = out ++ writeItems "" first l
  | [] => (String.append_empty).symm
  | j :: r => by
    have h (out : String) : writeItems (write out j) false r =
        out ++ (compact j ++ writeItems "" false r) := by
      rw [writeItems_eq (write out j) false r, write_eq out j, String.append_assoc]
    cases first <;> simp [writeItems, h, String.append_assoc]

theorem writeMembers_eq (out : String) (first : Bool) :
    ∀ l, writeMembers out first l = out ++ writeMembers "" first l
  | [] => (String.append_empty).symm
  | (k, j) :: r => by
    have h (out : String) : writeMembers (write out j) false r =
        out ++ (compact j ++ writeMembers "" false r) := by
      rw [writeMembers_eq (write out j) false r, write_eq out j, String.append_assoc]
    cases first <;> simp [writeMembers, h, String.append_assoc]

end

/-- The bytes of the items of an array, with the commas before all but the first. -/
def itemBytes (first : Bool) (l : List Json) : List UInt8 := bytes (writeItems "" first l)

/-- The bytes of the members of an object, with the commas before all but the first. -/
def memberBytes (first : Bool) (l : List (String × Json)) : List UInt8 :=
  bytes (writeMembers "" first l)

/-- What separates an item from those before it. -/
def separator (first : Bool) : List UInt8 := if first then [] else [44]

theorem bytes_array (items : List Json) :
    bytes (compact (.array items)) = 91 :: (itemBytes true items ++ [93]) := by
  rw [compact, write, writeItems_eq, bytes_append, bytes_append]
  rfl

theorem bytes_object (ms : List (String × Json)) :
    bytes (compact (.object ms)) = 123 :: (memberBytes true ms ++ [125]) := by
  rw [compact, write, writeMembers_eq, bytes_append, bytes_append]
  rfl

theorem itemBytes_cons (first : Bool) (j : Json) (r : List Json) :
    itemBytes first (j :: r) =
      separator first ++ (bytes (compact j) ++ itemBytes false r) := by
  rw [itemBytes, writeItems, writeItems_eq, write_eq, bytes_append, bytes_append,
    List.append_assoc]
  cases first <;> rfl

/-- A member is written as its name, a colon and its value. -/
theorem memberBytes_cons (first : Bool) (k : String) (j : Json) (r : List (String × Json)) :
    memberBytes first ((k, j) :: r) = separator first ++ (34 :: (bodyBytes k.toList ++
      34 :: 58 :: (bytes (compact j) ++ memberBytes false r))) := by
  rw [memberBytes, writeMembers, writeMembers_eq, write_eq, bytes_append, bytes_append,
    bytes_append, bytes_append, bytes_stringLiteral]
  have hcolon : bytes ":" = [58] := rfl
  have hseparator : bytes (if first then "" else "" ++ ",") = separator first := by
    cases first <;> rfl
  rw [hcolon, hseparator]
  simp only [memberBytes, List.append_assoc, List.cons_append, List.nil_append]

/-! ### What is read -/

/-- A byte with which a value can begin. -/
def Opening (b : UInt8) : Prop := ¬ (b = 32 ∨ b = 10 ∨ b = 9 ∨ b = 13) ∧ b ≠ 93

instance : DecidablePred Opening := fun _ => inferInstanceAs (Decidable (_ ∧ _))

/-- Where no blank stands, none is skipped. -/
theorem blanks_of_rest {c : Cursor} {b : UInt8} {r : List UInt8} (h : c.rest = b :: r)
    (hb : ¬ (b = 32 ∨ b = 10 ∨ b = 9 ∨ b = 13)) : c.blanks = c := by
  simp only [Cursor.blanks, h, Cursor.skipBlanks, if_neg hb]

theorem opening_of_isDigit {b : UInt8} (h : isDigit b = true) : Opening b := by
  refine ⟨?_, ?_⟩
  · rintro (rfl | rfl | rfl | rfl) <;> exact absurd h (by decide)
  · rintro rfl
    exact absurd h (by decide)

/-- A word is read to its end. -/
theorem word_of_rest (letters : List UInt8) (j : Json) {c : Cursor} {r : List UInt8}
    (h : c.rest = letters ++ r) : word letters j c = .ok (j, c.steps letters.length) := by
  induction letters generalizing c with
  | nil => rfl
  | cons l ls ih =>
    rw [List.cons_append] at h
    simp only [word, h, if_true]
    exact ih (Cursor.rest_step h)

/-- A value that begins with a digit is a number. -/
theorem value_digit {fuel depth : Nat} {c : Cursor} {b : UInt8} {r : List UInt8}
    (h : c.rest = b :: r) (digit : isDigit b = true) :
    value (fuel + 1) depth c = Reading.number true c := by
  have hblanks := blanks_of_rest h (opening_of_isDigit digit).1
  rw [value]
  simp only [hblanks, h]
  split
  all_goals first
    | exact absurd digit (by decide)
    | simp only [digit, if_true]

/-- The text of a natural number begins with a digit. -/
theorem bytes_toString_eq_cons (n : Nat) :
    ∃ b t, bytes (toString n) = b :: t ∧ isDigit b = true := by
  rw [bytes_toString]
  cases hds : Nat.toDigits 10 n with
  | nil => exact absurd hds Nat.toDigits_ne_nil
  | cons d ds =>
    have hd : d.isDigit = true :=
      Nat.isDigit_of_mem_toDigits (b := 10) (n := n) (by decide) (by decide) (by simp [hds])
    obtain ⟨b, hbytes, hdigit, -⟩ := digit_byte hd
    exact ⟨b, _, by rw [List.flatMap_cons, hbytes]; rfl, hdigit⟩

/-- The text of an integer is that of a natural number, with a sign if it is negative. -/
theorem bytes_integer (n : Int) :
    (∃ m : Nat, n = m ∧ bytes (toString n) = bytes (toString m)) ∨
      ∃ m : Nat, m ≠ 0 ∧ n = -m ∧ bytes (toString n) = 45 :: bytes (toString m) := by
  cases n with
  | ofNat m => exact .inl ⟨m, rfl, rfl⟩
  | negSucc m =>
    refine .inr ⟨m + 1, Nat.succ_ne_zero m, Int.negSucc_eq m, ?_⟩
    exact bytes_append "-" (toString (m + 1))

/-- An integer of 64 bits is read back from its decimal text. -/
theorem value_integer {n : Int} (low : Int64.minValue.toInt ≤ n) (high : n ≤ wordMax)
    {fuel depth : Nat} {c : Cursor} {r : List UInt8} (h : c.rest = bytes (toString n) ++ r) (ends : Ends r) :
    value (fuel + 1) depth c = .ok (.int n, c.steps (bytes (toString n)).length) := by
  rcases bytes_integer n with ⟨m, rfl, hbytes⟩ | ⟨m, hm, rfl, hbytes⟩
  · rw [hbytes] at h ⊢
    obtain ⟨b, t, hcons, hdigit⟩ := bytes_toString_eq_cons m
    have hrest : c.rest = b :: (t ++ r) := by rw [h, hcons]; rfl
    have hends : Ends (c.steps (bytes (toString m)).length).rest := by
      rw [Cursor.rest_steps _ h]
      exact ends
    have hsmall : m ≤ wordMax := Int.ofNat_le.mp high
    rw [value_digit hrest hdigit, number_toString hsmall h ends]
    exact (afterInteger_of_ends hends).1
  · rw [hbytes] at h ⊢
    have hstep := Cursor.rest_step h
    have hends : Ends (c.step.steps (bytes (toString m)).length).rest := by
      rw [Cursor.rest_steps _ hstep]
      exact ends
    have hmin : Int64.minValue.toInt = -(1 <<< 63 : Nat) := rfl
    have hle : m ≤ 1 <<< 63 := by omega
    have hsmall : m ≤ wordMax := Nat.le_trans hle (by decide)
    have hblanks := blanks_of_rest h (by decide)
    rw [value]
    simp only [hblanks, h, List.cons_append]
    rw [number_toString hsmall hstep ends]
    exact (afterInteger_of_ends hends).2 hm hle

theorem compact_integer (n : Int) : compact (.number (.integer n)) = toString n :=
  String.empty_append

theorem compact_string (s : String) : compact (.string s) = stringLiteral s :=
  String.empty_append

/-- Every value begins with a byte that opens it. -/
theorem bytes_compact_eq_cons {j : Json} {depth : Nat} (h : j.Readable depth) :
    ∃ b t, bytes (compact j) = b :: t ∧ Opening b := by
  cases j with
  | null => exact ⟨_, _, rfl, by decide⟩
  | bool b => cases b <;> exact ⟨_, _, rfl, by decide⟩
  | number n =>
    cases n with
    | real x => exact h.elim
    | integer n =>
      rw [compact_integer]
      rcases bytes_integer n with ⟨m, -, hbytes⟩ | ⟨m, -, -, hbytes⟩
      · obtain ⟨b, t, hcons, hdigit⟩ := bytes_toString_eq_cons m
        exact ⟨b, t, hbytes.trans hcons, opening_of_isDigit hdigit⟩
      · exact ⟨45, _, hbytes, by decide⟩
  | string s =>
    rw [compact_string]
    exact ⟨34, _, bytes_stringLiteral s, by decide⟩
  | array items => exact ⟨91, _, bytes_array items, by decide⟩
  | object ms => exact ⟨123, _, bytes_object ms, by decide⟩

/-- What follows an item or a member ends it. -/
theorem ends_itemBytes (l : List Json) (r : List UInt8) : Ends (itemBytes false l ++ 93 :: r) := by
  cases l with
  | nil =>
    rintro b ⟨⟩
    exact .inr (.inl rfl)
  | cons j l =>
    rw [itemBytes_cons]
    rintro b ⟨⟩
    exact .inl rfl

/-- The end of an object comes after its members, where a number may end. -/
theorem ends_memberBytes (l : List (String × Json)) (r : List UInt8) :
    Ends (memberBytes false l ++ 125 :: r) := by
  cases l with
  | nil =>
    rintro b ⟨⟩
    exact .inr (.inr rfl)
  | cons m l =>
    obtain ⟨k, j⟩ := m
    rw [memberBytes_cons]
    rintro b ⟨⟩
    exact .inl rfl

/-- An item is read after the comma that separates it from those before it. -/
theorem items_of_opening {first : Bool} {taken : List Json} {depth fuel : Nat} {c : Cursor}
    {b : UInt8} {t : List UInt8} (h : c.rest = separator first ++ b :: t) (opening : Opening b) :
    items (fuel + 1) depth first taken c =
      (value fuel depth (c.steps (separator first).length)).bind fun (j, c) =>
        items fuel depth false (j :: taken) c := by
  cases first with
  | true =>
    have hrest : c.rest = b :: t := h
    rw [items]
    simp only [blanks_of_rest hrest opening.1, hrest, if_neg opening.2, if_true]
    rfl
  | false =>
    have hrest : c.rest = 44 :: b :: t := h
    have hstep := Cursor.rest_step hrest
    have hcomma : ¬ (44 : UInt8) = 93 := by decide
    rw [items]
    simp only [blanks_of_rest hrest (by decide), hrest, if_neg hcomma, Bool.false_eq_true, if_false,
      if_true, blanks_of_rest hstep opening.1, hstep, if_neg opening.2]
    rfl

/-- A member is read after the comma that separates it from those before it. -/
theorem members_of_name {first : Bool} {taken : List (String × Json)} {depth fuel : Nat}
    {c : Cursor} {k : String} {t : List UInt8}
    (h : c.rest = separator first ++ (34 :: (bodyBytes k.toList ++ 34 :: 58 :: t))) :
    members (fuel + 1) depth first taken c =
      (value fuel depth (c.steps ((separator first).length + ((bodyBytes k.toList).length + 3)))).bind
        fun (j, c) => members fuel depth false ((k, j) :: taken) c := by
  -- the name and the colon, from the opening quote on
  have key {c : Cursor} (h : c.rest = 34 :: (bodyBytes k.toList ++ 34 :: 58 :: t)) :
      stringText c.step = .ok (k, c.step.steps ((bodyBytes k.toList).length + 1)) ∧
        (c.step.steps ((bodyBytes k.toList).length + 1)).rest = 58 :: t ∧
        c.steps ((bodyBytes k.toList).length + 3) =
          (c.step.steps ((bodyBytes k.toList).length + 1)).step := by
    have hstep := Cursor.rest_step h
    have hbody : c.step.rest = (bodyBytes k.toList ++ [34]) ++ 58 :: t := by simpa using hstep
    have hcolon := Cursor.rest_steps _ hbody
    rw [List.length_append] at hcolon
    exact ⟨stringText_literal k hstep, hcolon, Cursor.steps_add _ 1 c.step⟩
  have hclose : ¬ (34 : UInt8) = 125 := by decide
  cases first with
  | true =>
    have hrest : c.rest = 34 :: (bodyBytes k.toList ++ 34 :: 58 :: t) := h
    obtain ⟨hname, hcolon, hsteps⟩ := key hrest
    rw [members]
    simp only [blanks_of_rest hrest (by decide), hrest, if_neg hclose, Bool.not_true,
      Bool.false_eq_true, and_false, if_false, if_true, hname, bind, Except.bind,
      blanks_of_rest hcolon (by decide), hcolon]
    rw [← hsteps, Cursor.steps_add (separator true).length]
    rfl
  | false =>
    have hrest : c.rest = 44 :: 34 :: (bodyBytes k.toList ++ 34 :: 58 :: t) := h
    have hstep := Cursor.rest_step hrest
    obtain ⟨hname, hcolon, hsteps⟩ := key hstep
    have hcomma : ¬ (44 : UInt8) = 125 := by decide
    have hnone : ¬ ((44 : UInt8) ≠ 44 ∧ (!false) = true) := by decide
    rw [members]
    simp only [blanks_of_rest hrest (by decide), hrest, if_neg hcomma, if_neg hnone,
      Bool.false_eq_true, if_false, if_true, blanks_of_rest hstep (by decide), hstep, hname, bind,
      Except.bind, blanks_of_rest hcolon (by decide), hcolon]
    rw [← hsteps, Cursor.steps_add (separator false).length]
    rfl

mutual

/-- A value that was written is read back, whatever follows it. -/
theorem value_compact : ∀ (j : Json) {depth fuel : Nat} {c : Cursor} {r : List UInt8},
    j.Readable depth → c.rest = bytes (compact j) ++ r → Ends r →
    2 * (bytes (compact j)).length ≤ fuel →
    value fuel depth c = .ok (j, c.steps (bytes (compact j)).length)
  | j, depth, 0, c, r, readable, h, ends, enough => by
    obtain ⟨b, t, hcons, -⟩ := bytes_compact_eq_cons readable
    rw [hcons, List.length_cons] at enough
    omega
  | .null, depth, fuel + 1, c, r, readable, h, ends, enough => by
    have hrest : c.rest = 110 :: ([117, 108, 108] ++ r) := h
    rw [value]
    simp only [blanks_of_rest hrest (by decide), hrest]
    exact word_of_rest [117, 108, 108] .null (Cursor.rest_step hrest)
  | .bool true, depth, fuel + 1, c, r, readable, h, ends, enough => by
    have hrest : c.rest = 116 :: ([114, 117, 101] ++ r) := h
    rw [value]
    simp only [blanks_of_rest hrest (by decide), hrest]
    exact word_of_rest [114, 117, 101] (.bool true) (Cursor.rest_step hrest)
  | .bool false, depth, fuel + 1, c, r, readable, h, ends, enough => by
    have hrest : c.rest = 102 :: ([97, 108, 115, 101] ++ r) := h
    rw [value]
    simp only [blanks_of_rest hrest (by decide), hrest]
    exact word_of_rest [97, 108, 115, 101] (.bool false) (Cursor.rest_step hrest)
  | .number (.real _), depth, fuel + 1, c, r, readable, h, ends, enough => readable.elim
  | .number (.integer n), depth, fuel + 1, c, r, readable, h, ends, enough => by
    rw [compact_integer] at h ⊢
    exact value_integer readable.1 readable.2 h ends
  | .string s, depth, fuel + 1, c, r, readable, h, ends, enough => by
    rw [compact_string, bytes_stringLiteral] at h ⊢
    have hrest : c.rest = 34 :: (bodyBytes s.toList ++ 34 :: r) := by simpa using h
    have hread := stringText_literal s (Cursor.rest_step hrest)
    rw [value]
    simp only [blanks_of_rest hrest (by decide), hrest, hread, bind, Except.bind]
    rw [List.length_cons, List.length_append]
    rfl
  | .array l, depth, fuel + 1, c, r, readable, h, ends, enough => by
    rw [bytes_array] at h enough ⊢
    have hrest : c.rest = 91 :: (itemBytes true l ++ 93 :: r) := by simpa using h
    have hdepth : ¬ depth ≤ 1 := Nat.not_le.mpr readable.1
    rw [List.length_cons, List.length_append] at enough ⊢
    rw [value]
    simp only [blanks_of_rest hrest (by decide), hrest, if_neg hdepth]
    exact items_itemBytes l readable.2 (Cursor.rest_step hrest) (by omega)
  | .object ms, depth, fuel + 1, c, r, readable, h, ends, enough => by
    rw [bytes_object] at h enough ⊢
    have hrest : c.rest = 123 :: (memberBytes true ms ++ 125 :: r) := by simpa using h
    have hdepth : ¬ depth ≤ 1 := Nat.not_le.mpr readable.1
    rw [List.length_cons, List.length_append] at enough ⊢
    rw [value]
    simp only [blanks_of_rest hrest (by decide), hrest, if_neg hdepth]
    exact members_memberBytes ms readable.2 (Cursor.rest_step hrest) (by omega)

/-- The items of an array that was written are read back. -/
theorem items_itemBytes : ∀ (l : List Json) {first : Bool} {taken : List Json} {depth fuel : Nat}
    {c : Cursor} {r : List UInt8}, ReadableItems depth l → c.rest = itemBytes first l ++ 93 :: r →
    2 * (itemBytes first l).length < fuel →
    items fuel depth first taken c =
      .ok (.array (taken.reverse ++ l), c.steps ((itemBytes first l).length + 1))
  | l, first, taken, depth, 0, c, r, readable, h, enough => absurd enough (Nat.not_lt_zero _)
  | [], first, taken, depth, fuel + 1, c, r, readable, h, enough => by
    have hrest : c.rest = 93 :: r := h
    rw [items]
    simp only [blanks_of_rest hrest (by decide), hrest, if_true, List.append_nil]
    rfl
  | j :: l, first, taken, depth, fuel + 1, c, r, readable, h, enough => by
    rw [itemBytes_cons, List.length_append, List.length_append] at enough
    rw [itemBytes_cons] at h ⊢
    obtain ⟨b, t, hcons, hopening⟩ := bytes_compact_eq_cons readable.1
    have hrest : c.rest =
        separator first ++ (bytes (compact j) ++ (itemBytes false l ++ 93 :: r)) := by
      simpa only [List.append_assoc] using h
    have hitem := Cursor.rest_steps _ hrest
    have hread : value fuel depth (c.steps (separator first).length) = _ :=
      value_compact j readable.1 hitem (ends_itemBytes l r) (by omega)
    have hpositive : 0 < (bytes (compact j)).length := by simp [hcons]
    have hlater : items fuel depth false (j :: taken) _ = _ :=
      items_itemBytes l readable.2 (Cursor.rest_steps _ hitem) (by omega)
    rw [hcons] at hrest
    rw [items_of_opening hrest hopening, hread]
    refine hlater.trans ?_
    simp only [← Cursor.steps_add, List.length_append, List.reverse_cons, List.append_assoc,
      List.cons_append, List.nil_append, Nat.add_assoc]

/-- The members of an object that was written are read back. -/
theorem members_memberBytes : ∀ (l : List (String × Json)) {first : Bool}
    {taken : List (String × Json)} {depth fuel : Nat} {c : Cursor} {r : List UInt8},
    ReadableMembers depth l → c.rest = memberBytes first l ++ 125 :: r →
    2 * (memberBytes first l).length < fuel →
    members fuel depth first taken c =
      .ok (.object (taken.reverse ++ l), c.steps ((memberBytes first l).length + 1))
  | l, first, taken, depth, 0, c, r, readable, h, enough => absurd enough (Nat.not_lt_zero _)
  | [], first, taken, depth, fuel + 1, c, r, readable, h, enough => by
    have hrest : c.rest = 125 :: r := h
    rw [members]
    simp only [blanks_of_rest hrest (by decide), hrest, if_true, List.append_nil]
    rfl
  | (k, j) :: l, first, taken, depth, fuel + 1, c, r, readable, h, enough => by
    rw [memberBytes_cons] at h enough ⊢
    have hrest : c.rest = separator first ++ (34 :: (bodyBytes k.toList ++ 34 :: 58 ::
        (bytes (compact j) ++ (memberBytes false l ++ 125 :: r)))) := by
      simpa only [List.append_assoc, List.cons_append] using h
    -- the name with what surrounds it, then the value, then the other members
    have hname : c.rest = (separator first ++ 34 :: (bodyBytes k.toList ++ [34, 58])) ++
        (bytes (compact j) ++ (memberBytes false l ++ 125 :: r)) := by
      simpa only [List.append_assoc, List.cons_append, List.nil_append] using hrest
    have hlength : (separator first ++ 34 :: (bodyBytes k.toList ++ [34, 58])).length =
        (separator first).length + ((bodyBytes k.toList).length + 3) := by
      simp only [List.length_append, List.length_cons, List.length_nil]
    have hvalue := Cursor.rest_steps _ hname
    rw [hlength] at hvalue
    simp only [List.length_append, List.length_cons] at enough
    have hread : value fuel depth
        (c.steps ((separator first).length + ((bodyBytes k.toList).length + 3))) = _ :=
      value_compact j readable.1 hvalue (ends_memberBytes l r) (by omega)
    have hlater : members fuel depth false ((k, j) :: taken) _ = _ :=
      members_memberBytes l readable.2 (Cursor.rest_steps _ hvalue) (by omega)
    rw [members_of_name hrest, hread]
    refine hlater.trans ?_
    simp only [← Cursor.steps_add, List.length_append, List.length_cons, List.reverse_cons,
      List.append_assoc, List.cons_append, List.nil_append]
    refine congrArg (fun n => Except.ok (Json.object _, c.steps n)) ?_
    omega

end

/-- **Text that is read back.** -/
theorem parse_compact {j : Json} (h : j.Readable 128) : parse (compact j) = .ok j := by
  have hrest : (Cursor.start (compact j)).rest = bytes (compact j) ++ [] :=
    (List.append_nil _).symm
  have hread : value (2 * (bytes (compact j)).length + 2) 128 (.start (compact j)) = _ :=
    value_compact j h hrest nofun (Nat.le_add_right _ 2)
  -- nothing is left after the value
  have hend : ((Cursor.start (compact j)).steps (bytes (compact j)).length).rest = [] :=
    Cursor.rest_steps _ hrest
  have hblanks : ((Cursor.start (compact j)).steps (bytes (compact j)).length).blanks.rest = [] := by
    rw [Cursor.blanks, hend, Cursor.skipBlanks, hend]
  rw [List.append_nil] at hrest
  simp only [parse, hrest, hread, bind, Except.bind, hblanks, List.isEmpty_nil, if_true]

end StorageFeatures.Json
