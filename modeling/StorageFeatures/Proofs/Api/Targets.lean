import StorageFeatures.Api.Call
import StorageFeatures.Proofs.Object.Documents

/-!
# Targets of requests on objects

The path of a kind and the path of an object with a valid name are targets that a server gets as
they were written: no character of them is refused, ends the path or makes it too long. With a
question mark at the end they come with an empty query (`Api.makeRequest_target`,
`Api.makeRequest_target_query`, `Api.makeRequest_path_query`).
-/

namespace StorageFeatures

namespace Http.Uri

/-- A character takes four bytes at most. -/
theorem utf8ByteSize_le (s : String) : s.utf8ByteSize ≤ 4 * s.length := by
  have hchars : ∀ cs : List Char, (String.ofList cs).utf8ByteSize ≤ 4 * cs.length := by
    intro cs
    induction cs with
    | nil => exact Nat.le_refl 0
    | cons c cs ih =>
      rw [String.ofList_cons, String.utf8ByteSize_append, String.utf8ByteSize_singleton,
        List.length_cons]
      have := c.utf8Size_le_four
      omega
  have hs := hchars s.toList
  rwa [String.ofList_toList, String.length_toList] at hs

/-- A path is read up to a question mark, or to the end. -/
theorem parsePath_append {cs : List Char} (h : ∀ c ∈ cs, isPathChar c = true) (hne : cs ≠ []) :
    parsePath cs = .ok (String.ofList cs, none) ∧
      parsePath (cs ++ ['?']) = .ok (String.ofList cs, some "") := by
  have hkeep : ∀ c ∈ cs, (c ≠ '?' && c ≠ '#') = true := by
    intro c hc
    have hpath := h c hc
    rw [Bool.and_eq_true, decide_eq_true_eq, decide_eq_true_eq]
    constructor <;> rintro rfl <;> exact absurd hpath (by decide)
  have hall : cs.all isPathChar = true := List.all_eq_true.mpr h
  have hempty : cs.isEmpty = false := by simpa using hne
  have htake (r : List Char) : (cs ++ r).takeWhile (fun c => c ≠ '?' && c ≠ '#') =
      cs ++ r.takeWhile (fun c => c ≠ '?' && c ≠ '#') :=
    List.takeWhile_append_of_pos hkeep
  constructor
  · have hself := htake []
    rw [List.takeWhile_nil, List.append_nil] at hself
    simp only [parsePath, hself, hall, hempty, List.drop_length, Bool.not_true, Bool.false_eq_true,
      if_false]
  · have hself := htake ['?']
    have hend : ['?'].takeWhile (fun c => c ≠ '?' && c ≠ '#') = [] := by decide
    rw [hend, List.append_nil] at hself
    simp only [parsePath, hself, hall, hempty, List.drop_left, Bool.not_true, Bool.false_eq_true,
      if_false]
    rfl

/-- A path is a target that is read as it was written. -/
theorem parse_of_path {s : String} (h : ∀ c ∈ s.toList, isPathChar c = true)
    (hslash : s.toList.head? = some '/') (hlength : s.length ≤ 1000) :
    parse s = .ok { path := s } ∧ parse (s ++ "?") = .ok { path := s, query := some "" } := by
  have hsize := utf8ByteSize_le s
  have hshort : ¬ maxLength < s.utf8ByteSize := by
    simp only [maxLength]
    omega
  have hshort' : ¬ maxLength < (s ++ "?").utf8ByteSize := by
    have hmark : ("?" : String).utf8ByteSize = 1 := rfl
    simp only [maxLength, String.utf8ByteSize_append, hmark]
    omega
  obtain ⟨cs, hcs⟩ : ∃ cs, s.toList = '/' :: cs := List.head?_eq_some_iff.mp hslash
  have hne : s.toList ≠ [] := by simp [hcs]
  obtain ⟨hpath, hquery⟩ := parsePath_append h hne
  rw [hcs] at hpath hquery
  have hs : String.ofList ('/' :: cs) = s := by rw [← hcs, String.ofList_toList]
  constructor
  · simp only [parse, if_neg hshort, hcs, hpath, hs]
    rfl
  · have hcs' : (s ++ "?").toList = '/' :: cs ++ ['?'] := by rw [String.toList_append, hcs]; rfl
    simp only [parse, if_neg hshort', hcs', hquery, hs]
    rfl

end Http.Uri

namespace Kind

open Http.Uri (isPathChar)

/-- The path of a kind can be sent as it is, and is short. -/
theorem path_spec (k : Kind) : (∀ c ∈ k.path.toList, isPathChar c = true) ∧
    k.path.toList.head? = some '/' ∧ k.path.length ≤ 100 := by
  cases k <;> exact ⟨List.all_eq_true.mp rfl, rfl, by decide⟩

theorem isPathChar_of_isValidName {n : String} (h : isValidName n = true) {c : Char}
    (hc : c ∈ n.toList) : isPathChar c = true := by
  obtain hend | rfl | rfl := mem_of_isValidName h hc
  · have hrange := range_of_isLabelEnd hend
    simp only [isPathChar, Bool.or_eq_true, Bool.and_eq_true, decide_eq_true_eq, beq_iff_eq]
    omega
  · rfl
  · rfl

/-- The path of an object with a valid name can be sent as it is, and is not long. -/
theorem target_spec (k : Kind) {n : String} (h : isValidName n = true) :
    (∀ c ∈ (k.target n).toList, isPathChar c = true) ∧
      (k.target n).toList.head? = some '/' ∧ (k.target n).length ≤ 1000 := by
  obtain ⟨hchars, hslash, hlength⟩ := k.path_spec
  have hn := length_of_isValidName h
  have hone : ("/" : String).length = 1 := rfl
  refine ⟨fun c hc => ?_, ?_, ?_⟩
  · simp only [target, String.toList_append, List.mem_append] at hc
    obtain (hc | hc) | hc := hc
    · exact hchars c hc
    · obtain rfl : c = '/' := by simpa using hc
      rfl
    · exact isPathChar_of_isValidName h hc
  · rw [target, String.toList_append, String.toList_append, List.append_assoc,
      List.head?_append, hslash]
    rfl
  · simp only [target, String.length_append, hone]
    omega

end Kind

namespace Api

variable (k : Kind) {n : String} (method : String) (body : Option Json)

/-- A request for an object reaches its path. -/
theorem makeRequest_target (h : isValidName n = true) :
    makeRequest method (k.target n) body = .ok ⟨method, k.target n, none, body⟩ := by
  obtain ⟨hchars, hslash, hlength⟩ := k.target_spec h
  have hparse := (Http.Uri.parse_of_path hchars hslash hlength).1
  simp only [makeRequest, Http.Request.make, hparse]
  rfl

theorem makeRequest_target_query (h : isValidName n = true) :
    makeRequest method (k.target n ++ "?") body = .ok ⟨method, k.target n, some "", body⟩ := by
  obtain ⟨hchars, hslash, hlength⟩ := k.target_spec h
  have hparse := (Http.Uri.parse_of_path hchars hslash hlength).2
  simp only [makeRequest, Http.Request.make, hparse]
  rfl

theorem makeRequest_path_query :
    makeRequest method (k.path ++ "?") body = .ok ⟨method, k.path, some "", body⟩ := by
  obtain ⟨hchars, hslash, hlength⟩ := k.path_spec
  have hparse := (Http.Uri.parse_of_path hchars hslash (Nat.le_trans hlength (by decide))).2
  simp only [makeRequest, Http.Request.make, hparse]
  rfl

end Api

end StorageFeatures
