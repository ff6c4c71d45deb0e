import StorageFeatures.Controller.Config
import StorageFeatures.Proofs.Decimal.Numerals
import StorageFeatures.Proofs.Text.Trimming
import Mathlib.Data.Prod.Lex

/-!
# Which texts are versions

A server may report its version with a mark before it and with the name of a distribution behind it,
so reading is lenient about both and strict about the three numbers between them. `Version.Says`
lists the texts that say a version, and `Version.reading_of_says` is the main result:

* a text is read as a version exactly if it says that version, and any other text is refused;
* what is printed for a version says it, with blanks around it and any suffix behind it;
* the gate of the controller lets a version pass exactly if it is not older than the minimum in the
  lexicographic order of the three numbers.
-/

namespace StorageFeatures

/-- A digit is no blank. -/
theorem Text.isBlank_of_isDigit {c : Char} (h : c.isDigit = true) : isBlank c = false := by
  have hrange : '0'.toNat ≤ c.toNat ∧ c.toNat ≤ '9'.toNat := Char.isDigit_iff_toNat.mp h
  have hzero : '0'.toNat = 48 := rfl
  have hnine : '9'.toNat = 57 := rfl
  simp only [isBlank, Bool.or_eq_false_iff, Bool.and_eq_false_iff, decide_eq_false_iff_not,
    beq_eq_false_iff_ne]
  omega

namespace Version

open Word (Numeral)
open Text (Blank Bare Trims isBlank trimChars)

/-! ### What a text says -/

/-- One `v` at the beginning is no part of a version. -/
inductive Unmarked : List Char → List Char → Prop where
  | marked (cs : List Char) : Unmarked ('v' :: cs) cs
  | plain {cs : List Char} (h : cs.head? ≠ some 'v') : Unmarked cs cs

/-- What a version is followed by: nothing, or something that begins with `-` or `+`. -/
def Suffix (cs : List Char) : Prop := ∀ c ∈ cs.head?, c = '-' ∨ c = '+'

/-- What stands before the first `-` or `+`. -/
def Cut (cs t : List Char) : Prop :=
  ∃ suffix, cs = t ++ suffix ∧ Suffix suffix ∧ ∀ c ∈ t, c ≠ '-' ∧ c ≠ '+'

/-- Three numerals joined by points. -/
def Spelled (cs : List Char) (v : Version) : Prop :=
  ∃ major minor patch, cs = major ++ '.' :: (minor ++ '.' :: patch) ∧
    Numeral major v.major ∧ Numeral minor v.minor ∧ Numeral patch v.patch

/-- A text says a version: the blanks around it, one `v` at the beginning, and what begins with the
first `-` or `+` do not count, and the rest are three numerals joined by points. -/
def Says (raw : String) (v : Version) : Prop :=
  ∃ trimmed unmarked spelled, Trims raw.toList trimmed ∧ Unmarked trimmed unmarked ∧
    Cut unmarked spelled ∧ Spelled spelled v

/-- The three numbers have 64 bits. -/
structure Fits (v : Version) : Prop where
  major : v.major < UInt64.size
  minor : v.minor < UInt64.size
  patch : v.patch < UInt64.size

/-- The numbers of a version in their lexicographic order. -/
def rank (v : Version) : Lex (Nat × Lex (Nat × Nat)) := toLex (v.major, toLex (v.minor, v.patch))

/-- What reading and the gate make of a text. -/
structure Reading (config : ControllerConfig) (raw : String) (v : Version) : Prop where
  /-- A text is read as the version that it says. -/
  accepted : read raw = .ok v ↔ Says raw v
  /-- A text that says no version is refused. -/
  refused : (∀ w, ¬ Says raw w) ↔ ∃ cause, read raw = .error (.invalidVersion cause)
  /-- What is printed is read back, with blanks around it and a suffix behind it. -/
  returned : v.Fits → ∀ before suffix after : String, Blank before.toList →
    Suffix suffix.toList → Blank after.toList →
    read (before ++ toString v ++ suffix ++ after) = .ok v
  /-- The gate compares with the minimum. -/
  gated : ∀ supported, config.checkVersion (.ok raw) = .ok (v, supported) ↔
    Says raw v ∧ (supported = true ↔ config.minVersion.rank ≤ v.rank)

/-! ### Pieces -/

variable {cs t : List Char} {v : Version}

theorem pieces_eq_singleton (h : '.' ∉ cs) : pieces cs = [cs] := by
  induction cs with
  | nil => rfl
  | cons c r ih =>
    obtain ⟨hc, hr⟩ := List.ne_and_not_mem_of_not_mem_cons h
    rw [pieces, if_neg (Ne.symm hc), ih hr]

/-- What stands before the first point is the first piece. -/
theorem pieces_append (h : '.' ∉ t) (cs : List Char) : pieces (t ++ '.' :: cs) = t :: pieces cs := by
  induction t with
  | nil => simp [pieces]
  | cons c r ih =>
    obtain ⟨hc, hr⟩ := List.ne_and_not_mem_of_not_mem_cons h
    rw [List.cons_append, pieces, if_neg (Ne.symm hc), ih hr]

/-- The first piece ends with the text or at the first point. -/
theorem eq_of_pieces {p : List Char} {ps : List (List Char)} (h : pieces cs = p :: ps) :
    '.' ∉ p ∧ ((ps = [] ∧ cs = p) ∨ ∃ r, pieces r = ps ∧ cs = p ++ '.' :: r) := by
  induction cs generalizing p with
  | nil =>
    obtain ⟨rfl, rfl⟩ := List.cons.inj h
    exact ⟨List.not_mem_nil, .inl ⟨rfl, rfl⟩⟩
  | cons c r ih =>
    rw [pieces] at h
    split at h
    · rename_i hc
      obtain ⟨rfl, rfl⟩ := List.cons.inj h
      exact ⟨List.not_mem_nil, .inr ⟨r, rfl, by rw [hc, List.nil_append]⟩⟩
    · rename_i hc
      cases hr : pieces r with
      | nil => exact absurd hr (pieces_ne_nil r)
      | cons q qs =>
        rw [hr] at h
        obtain ⟨rfl, rfl⟩ := List.cons.inj h
        obtain ⟨hq, hrest⟩ := ih hr
        refine ⟨List.not_mem_cons_of_ne_of_not_mem (Ne.symm hc) hq, ?_⟩
        rcases hrest with ⟨hnil, rfl⟩ | ⟨s, hs, rfl⟩
        · exact .inl ⟨hnil, rfl⟩
        · exact .inr ⟨s, hs, rfl⟩

/-- Three pieces are what is joined by two points. -/
theorem pieces_eq_three_iff {a b c : List Char} : pieces cs = [a, b, c] ↔
    cs = a ++ '.' :: (b ++ '.' :: c) ∧ '.' ∉ a ∧ '.' ∉ b ∧ '.' ∉ c := by
  constructor
  · intro h
    obtain ⟨ha, ⟨hnil, -⟩ | ⟨r, hr, rfl⟩⟩ := eq_of_pieces h
    · cases hnil
    obtain ⟨hb, ⟨hnil, -⟩ | ⟨s, hs, rfl⟩⟩ := eq_of_pieces hr
    · cases hnil
    obtain ⟨hc, ⟨-, rfl⟩ | ⟨r, hr, -⟩⟩ := eq_of_pieces hs
    · exact ⟨rfl, ha, hb, hc⟩
    · exact absurd hr (pieces_ne_nil r)
  · rintro ⟨rfl, ha, hb, hc⟩
    rw [pieces_append ha, pieces_append hb, pieces_eq_singleton hc]

/-! ### Parts -/

private theorem bind_eq_ok_iff {ε α β : Type} {x : Except ε α} {f : α → Except ε β} {b : β} :
    (x >>= f) = .ok b ↔ ∃ a, x = .ok a ∧ f a = .ok b := by
  cases x <;> simp [bind, Except.bind]

/-- A part is read if it is there and is a numeral. -/
theorem part_eq_ok_iff {name : String} {ps rest : List (List Char)} {n : Nat} :
    part name ps = .ok (n, rest) ↔ ∃ p, ps = p :: rest ∧ Numeral p n := by
  cases ps with
  | nil => simp [part]
  | cons p ps =>
    cases p with
    | nil => simp [part, Word.numeral_iff]
    | cons c r =>
      have hpart : part name ((c :: r) :: ps) =
        ((Word.digits 0 (c :: r)).mapError .badPart >>= fun n => .ok (n, ps)) := rfl
      rw [hpart, bind_eq_ok_iff]
      cases hdigits : Word.digits 0 (c :: r) with
      | error e =>
        refine iff_of_false ?_ ?_
        · rintro ⟨m, hm, -⟩
          cases hm
        · rintro ⟨p, hp, hn⟩
          obtain rfl := (List.cons.inj hp).1
          rw [(Word.numeral_iff.mp hn).2] at hdigits
          cases hdigits
      | ok m =>
        have hm : Numeral (c :: r) n ↔ m = n := by simp [Word.numeral_iff, hdigits]
        constructor
        · rintro ⟨_, hread, hreturn⟩
          cases hread
          cases hreturn
          exact ⟨_, rfl, hm.mpr rfl⟩
        · rintro ⟨_, hp, hn⟩
          cases hp
          obtain rfl := hm.mp hn
          exact ⟨m, rfl, rfl⟩

/-- Exactly three numerals make a version. -/
theorem ofPieces_eq_ok_iff {ps : List (List Char)} : ofPieces ps = .ok v ↔
    ∃ a b c, ps = [a, b, c] ∧ Numeral a v.major ∧ Numeral b v.minor ∧ Numeral c v.patch := by
  simp only [ofPieces, bind_eq_ok_iff, Prod.exists, part_eq_ok_iff]
  constructor
  · rintro ⟨major, _, ⟨a, rfl, ha⟩, minor, _, ⟨b, rfl, hb⟩, patch, ps, ⟨c, rfl, hc⟩, hend⟩
    split at hend
    · rename_i hnil
      obtain rfl := List.isEmpty_iff.mp hnil
      cases hend
      exact ⟨a, b, c, rfl, ha, hb, hc⟩
    · cases hend
  · rintro ⟨a, b, c, rfl, ha, hb, hc⟩
    exact ⟨_, _, ⟨a, rfl, ha⟩, _, _, ⟨b, rfl, hb⟩, _, _, ⟨c, rfl, hc⟩, rfl⟩

/-- The three parts are the whole of a text. -/
theorem ofPieces_pieces_eq_ok_iff : ofPieces (pieces cs) = .ok v ↔ Spelled cs v := by
  rw [ofPieces_eq_ok_iff]
  have hpoint : '.'.isDigit = false := rfl
  constructor
  · rintro ⟨a, b, c, hpieces, ha, hb, hc⟩
    exact ⟨a, b, c, (pieces_eq_three_iff.mp hpieces).1, ha, hb, hc⟩
  · rintro ⟨a, b, c, hcs, ha, hb, hc⟩
    refine ⟨a, b, c, pieces_eq_three_iff.mpr ⟨hcs, ?_, ?_, ?_⟩, ha, hb, hc⟩
    · exact ha.notMem hpoint
    · exact hb.notMem hpoint
    · exact hc.notMem hpoint

/-! ### Marks and suffixes -/

/-- One mark at the beginning is dropped, and no more. -/
theorem unmarked_iff : Unmarked cs t ↔ dropMark cs = t := by
  constructor
  · rintro (_ | h)
    · rfl
    · unfold dropMark
      split
      · exact absurd rfl h
      · rfl
  · rintro rfl
    unfold dropMark
    split
    · exact .marked _
    · rename_i hv
      refine .plain fun h => ?_
      obtain ⟨r, rfl⟩ := List.head?_eq_some_iff.mp h
      exact hv r rfl

/-- The core ends where a suffix begins. -/
theorem core_append (h : ∀ c ∈ t, c ≠ '-' ∧ c ≠ '+') {suffix : List Char} (hs : Suffix suffix) :
    core (t ++ suffix) = t := by
  have hkeep : ∀ c ∈ t, (c ≠ '-' && c ≠ '+') = true := by simpa using h
  rw [core, List.takeWhile_append_of_pos hkeep]
  cases suffix with
  | nil => rw [List.takeWhile_nil, List.append_nil]
  | cons c r =>
    have hstop : (c ≠ '-' && c ≠ '+') = false := by
      simpa [or_iff_not_imp_left] using hs c rfl
    rw [List.takeWhile_cons, hstop]
    exact List.append_nil t

/-- The core is what stands before the first sign of a suffix. -/
theorem cut_iff : Cut cs t ↔ core cs = t := by
  constructor
  · rintro ⟨suffix, rfl, hs, ht⟩
    exact core_append ht hs
  · rintro rfl
    refine ⟨cs.dropWhile fun c => c ≠ '-' && c ≠ '+', List.takeWhile_append_dropWhile.symm, ?_, ?_⟩
    · intro c hc
      have hstop := List.head?_dropWhile_not (fun c => c ≠ '-' && c ≠ '+') cs
      rw [Option.mem_def.mp hc] at hstop
      simpa [or_iff_not_imp_left] using hstop
    · intro c hc
      have hkeep := List.all_eq_true.mp (List.all_takeWhile ..) c hc
      simpa using hkeep

/-! ### Texts -/

/-- **Reading takes exactly the texts that say a version.** -/
theorem parse_eq_ok_iff {raw : String} : parse raw = .ok v ↔ Says raw v := by
  rw [parse, ofPieces_pieces_eq_ok_iff]
  constructor
  · intro h
    exact ⟨_, _, _, Text.trims_iff.mpr rfl, unmarked_iff.mpr rfl, cut_iff.mpr rfl, h⟩
  · rintro ⟨trimmed, unmarked, spelled, ht, hu, hc, h⟩
    obtain rfl := Text.trims_iff.mp ht
    obtain rfl := unmarked_iff.mp hu
    obtain rfl := cut_iff.mp hc
    exact h

/-- Reading a version from a text is finding what the text says. -/
theorem read_eq_ok_iff {raw : String} : read raw = .ok v ↔ Says raw v := by
  rw [← parse_eq_ok_iff, read]
  cases parse raw <;> simp

/-- A text that is not read says no version. -/
theorem exists_read_eq_error_iff {raw : String} :
    (∀ w, ¬ Says raw w) ↔ ∃ cause, read raw = .error (.invalidVersion cause) := by
  simp only [← parse_eq_ok_iff, read]
  cases parse raw with
  | error e => simp
  | ok w => simp

/-! ### Printed versions -/

/-- What is printed for a version, without its mark. -/
def numbers (v : Version) : List Char :=
  Nat.toDigits 10 v.major ++ '.' :: (Nat.toDigits 10 v.minor ++ '.' :: Nat.toDigits 10 v.patch)

/-- A version is printed with its mark and its three numbers. -/
theorem toList_toString (v : Version) : (toString v).toList = 'v' :: v.numbers := by
  show ("v" ++ toString v.major ++ "." ++ toString v.minor ++ "." ++ toString v.patch).toList = _
  simp [numbers]

theorem Fits.spelled (h : v.Fits) : Spelled v.numbers v :=
  ⟨_, _, _, rfl, Word.numeral_toDigits h.major, Word.numeral_toDigits h.minor,
    Word.numeral_toDigits h.patch⟩

/-- A spelled version is made of digits and points. -/
theorem Spelled.isDigit_or (h : Spelled cs v) {c : Char} (hc : c ∈ cs) :
    c.isDigit = true ∨ c = '.' := by
  obtain ⟨a, b, d, rfl, ha, hb, hd⟩ := h
  simp only [List.mem_append, List.mem_cons] at hc
  rcases hc with hc | rfl | hc | rfl | hc
  · exact .inl (ha.digits c hc)
  · exact .inr rfl
  · exact .inl (hb.digits c hc)
  · exact .inr rfl
  · exact .inl (hd.digits c hc)

/-- The blanks before and behind a version are apart from it. -/
theorem Spelled.bare (h : Spelled cs v) : Bare ('v' :: cs) := by
  have hpoint : isBlank '.' = false := by decide
  have hmark : isBlank 'v' = false := by decide
  refine Text.bare_of_forall fun c hc => ?_
  rcases List.mem_cons.mp hc with rfl | hc
  · exact hmark
  · rcases h.isDigit_or hc with hdigit | rfl
    · exact Text.isBlank_of_isDigit hdigit
    · exact hpoint

/-- What is left of a suffix and of the blanks behind it is a suffix. -/
theorem Suffix.trimmed {suffix after : List Char} (h : Suffix suffix) (ha : Blank after) :
    Suffix (Text.trimLeft (suffix ++ after).reverse).reverse := by
  intro c hc
  obtain ⟨rest, hrest⟩ := Text.trimLeft_reverse_prefix (suffix ++ after)
  cases suffix with
  | nil =>
    rw [List.nil_append, Text.trimLeft_reverse_eq_nil ha] at hc
    cases hc
  | cons d r =>
    -- the first character is that of the suffix
    have hhead := congrArg List.head? hrest
    rw [List.head?_append, Option.mem_def.mp hc] at hhead
    exact h c hhead.symm

/-- **A printed version is read back.** -/
theorem Fits.parse_eq (h : v.Fits) {before suffix after : String} (hb : Blank before.toList)
    (hs : Suffix suffix.toList) (ha : Blank after.toList) :
    parse (before ++ toString v ++ suffix ++ after) = .ok v := by
  have hspelled := h.spelled
  have hplain : ∀ c ∈ v.numbers, c ≠ '-' ∧ c ≠ '+' := by
    intro c hc
    rcases hspelled.isDigit_or hc with hdigit | rfl
    · constructor <;> rintro rfl <;> cases hdigit
    · decide
  have htrim : trimChars (before ++ toString v ++ suffix ++ after).toList =
      'v' :: v.numbers ++ (Text.trimLeft (suffix.toList ++ after.toList).reverse).reverse := by
    simp only [String.toList_append, toList_toString]
    rw [List.append_assoc _ suffix.toList]
    exact Text.trimChars_append hb (List.cons_ne_nil _ _) hspelled.bare _
  rw [parse, htrim, List.cons_append, dropMark, core_append hplain (hs.trimmed ha)]
  exact ofPieces_pieces_eq_ok_iff.mpr hspelled

/-! ### The gate -/

/-- The order of ranks is the order of the gate. -/
theorem rank_le_rank_iff {least : Version} : least.rank ≤ v.rank ↔ v.atLeast least = true := by
  simp [rank, atLeast, Prod.Lex.toLex_le_toLex]

/-- **What texts say, and what the gate makes of it.** A text is read exactly as the version that it
says, a printed version is read back, and the gate compares major, minor and patch in this order. -/
theorem reading_of_says (config : ControllerConfig) (raw : String) (v : Version) :
    Reading config raw v where
  accepted := read_eq_ok_iff
  refused := exists_read_eq_error_iff
  returned fits before suffix after hb hs ha := by
    rw [read, fits.parse_eq hb hs ha]
  gated supported := by
    rw [rank_le_rank_iff, ← read_eq_ok_iff, ControllerConfig.checkVersion]
    cases hread : read raw with
    | error fault => simp [bind, Except.bind, hread]
    | ok w =>
      simp only [bind, Except.bind, hread, pure, Except.pure, Except.ok.injEq, Prod.mk.injEq]
      constructor
      · rintro ⟨rfl, rfl⟩
        exact ⟨rfl, Iff.rfl⟩
      · rintro ⟨rfl, h⟩
        exact ⟨rfl, (Bool.eq_iff_iff.mpr h).symm⟩

example : (parse " v1.020.3-k3s1\n").toOption = some ⟨1, 20, 3⟩ := by decide

end Version

end StorageFeatures
